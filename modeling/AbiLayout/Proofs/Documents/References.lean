import AbiLayout.Document.Reading
import Mathlib.Logic.Basic

/-!
# How many references a reading follows

Reading a document looks at its allowance only where it follows a reference. Main statement: whenever a
reading comes to a value it has followed so many references, and it comes to the same value, with the rest
left, under every allowance that suffices for them. So readings can be compared by what they come to and
how many references they follow, whatever the order in which they do.
-/

namespace AbiLayout.Document

variable {S α β : Type} {targets : Array (Node S)}

namespace Reading

/-- The reading comes to the value by following so many references. -/
def Takes (targets : Array (Node S)) (x : Reading S α) (a : α) (followed : Nat) : Prop :=
  ∀ left, (x.run targets).run (left + followed) = .ok (a, left)

/-- Whatever the reading comes to, it comes to by following some number of references. -/
def Counts (x : Reading S α) : Prop :=
  ∀ targets allowance a left, (x.run targets).run allowance = .ok (a, left) →
    ∃ followed, allowance = left + followed ∧ Takes targets x a followed

/-! ### Steps -/

theorem run_bind_eq_ok_iff {x : Reading S α} {f : α → Reading S β} {allowance left : Nat} {b : β} :
    ((x >>= f).run targets).run allowance = .ok (b, left) ↔
      ∃ a rest, (x.run targets).run allowance = .ok (a, rest) ∧
        ((f a).run targets).run rest = .ok (b, left) := by
  have hbind : ((x >>= f).run targets).run allowance =
      (x.run targets).run allowance >>= fun r => ((f r.1).run targets).run r.2 := rfl
  rw [hbind]
  cases (x.run targets).run allowance with
  | error fault =>
    constructor
    · intro h
      cases h
    · rintro ⟨a, rest, h, _⟩
      cases h
  | ok r =>
    obtain ⟨a, rest⟩ := r
    constructor
    · intro h
      exact ⟨a, rest, rfl, h⟩
    · rintro ⟨a', rest', h, hf⟩
      cases h
      exact hf

theorem takes_pure_iff {a b : α} {followed : Nat} :
    Takes targets (pure a : Reading S α) b followed ↔ b = a ∧ followed = 0 := by
  constructor
  · intro h
    have h0 : (Except.ok (a, 0 + followed) : Except Fault (α × Nat)) = .ok (b, 0) := h 0
    rw [Except.ok.injEq, Prod.mk.injEq] at h0
    exact ⟨h0.1.symm, by omega⟩
  · rintro ⟨rfl, rfl⟩ left
    rfl

theorem not_takes_throw {fault : Fault} {a : α} {followed : Nat} :
    ¬ Takes targets (throw fault : Reading S α) a followed := by
  intro h
  have h0 := h 0
  cases h0

theorem Takes.bind {x : Reading S α} {f : α → Reading S β} {a : α} {b : β} {i j : Nat}
    (hx : Takes targets x a i) (hf : Takes targets (f a) b j) :
    Takes targets (x >>= f) b (i + j) := by
  intro left
  rw [run_bind_eq_ok_iff]
  refine ⟨a, left + j, ?_, hf left⟩
  rw [Nat.add_comm i j, ← Nat.add_assoc]
  exact hx (left + j)

namespace Counts

theorem pure (a : α) : Counts (pure a : Reading S α) := by
  intro targets allowance b left h
  cases h
  exact ⟨0, rfl, takes_pure_iff.2 ⟨rfl, rfl⟩⟩

theorem throw (fault : Fault) : Counts (throw fault : Reading S α) := by
  intro targets allowance b left h
  cases h

theorem bind {x : Reading S α} {f : α → Reading S β} (hx : Counts x) (hf : ∀ a, Counts (f a)) :
    Counts (x >>= f) := by
  intro targets allowance b left h
  rw [run_bind_eq_ok_iff] at h
  obtain ⟨a, rest, hxa, hfb⟩ := h
  obtain ⟨i, hi, htakes⟩ := hx _ _ _ _ hxa
  obtain ⟨j, hj, htakes'⟩ := hf a _ _ _ _ hfb
  exact ⟨i + j, by omega, htakes.bind htakes'⟩

end Counts

/-- One reading after the other: what they follow adds up. -/
theorem takes_bind_iff {x : Reading S α} {f : α → Reading S β} (hx : Counts x) {b : β} {followed : Nat} :
    Takes targets (x >>= f) b followed ↔
      ∃ a i j, Takes targets x a i ∧ Takes targets (f a) b j ∧ followed = i + j := by
  constructor
  · intro h
    obtain ⟨a, rest, hxa, -⟩ := run_bind_eq_ok_iff.1 (h 0)
    obtain ⟨i, hi, htakes⟩ := hx _ _ _ _ hxa
    refine ⟨a, i, rest, htakes, fun left => ?_, by omega⟩
    -- under every allowance the first reading leaves to the second what this one follows
    obtain ⟨a', rest', hxa', hfb⟩ := run_bind_eq_ok_iff.1 (h left)
    have hsplit : left + followed = left + rest + i := by omega
    rw [hsplit, htakes (left + rest)] at hxa'
    cases hxa'
    exact hfb
  · rintro ⟨a, i, j, htakes, htakes', rfl⟩
    exact htakes.bind htakes'

/-- What is made of a value at the end follows no more references. -/
theorem takes_bind_pure_iff {x : Reading S α} (hx : Counts x) {g : α → β} {b : β} {followed : Nat} :
    Takes targets (x >>= fun a => pure (g a)) b followed ↔ ∃ a, Takes targets x a followed ∧ b = g a := by
  rw [takes_bind_iff hx]
  constructor
  · rintro ⟨a, i, j, htakes, hpure, rfl⟩
    obtain ⟨rfl, rfl⟩ := takes_pure_iff.1 hpure
    exact ⟨a, htakes, rfl⟩
  · rintro ⟨a, htakes, rfl⟩
    exact ⟨a, followed, 0, htakes, takes_pure_iff.2 ⟨rfl, rfl⟩, rfl⟩

/-- Two readings that begin alike are related as what follows is, if that is related by what else is
followed. -/
theorem takes_bind_split {γ : Type} {x : Reading S α} {f : α → Reading S β} {g : α → Reading S γ}
    (hx : Counts x) {b : β} {p : γ → Nat → Prop}
    (h : ∀ a n, Takes targets (f a) b n ↔ ∃ c i j, Takes targets (g a) c i ∧ p c j ∧ n = i + j)
    {followed : Nat} :
    Takes targets (x >>= f) b followed ↔
      ∃ c i j, Takes targets (x >>= g) c i ∧ p c j ∧ followed = i + j := by
  simp only [takes_bind_iff hx, h]
  constructor
  · rintro ⟨a, k, _, hk, ⟨c, i, j, hi, hj, rfl⟩, rfl⟩
    exact ⟨c, k + i, j, ⟨a, k, i, hk, hi, rfl⟩, hj, (Nat.add_assoc ..).symm⟩
  · rintro ⟨c, _, j, ⟨a, k, i, hk, hi, rfl⟩, hj, rfl⟩
    exact ⟨a, k, i + j, hk, ⟨c, i, j, hi, hj, rfl⟩, Nat.add_assoc ..⟩

end Reading

open Reading (Takes Counts takes_pure_iff takes_bind_iff not_takes_throw)

/-! ### Readings of values -/

theorem run_follow_reference (number allowance : Nat) :
    ((follow (.reference number)).run targets).run (allowance + 1) =
      (targets[number]?.elim (.error .malformed) fun target => .ok (target, allowance)) := by
  have hget : (ReaderT.run (get : Reading S Nat) targets).run (allowance + 1) =
      .ok (allowance + 1, allowance + 1) := rfl
  have hread : (ReaderT.run (read : Reading S (Array (Node S))) targets).run (allowance + 1) =
      .ok (targets, allowance + 1) := rfl
  have hok : ∀ {γ δ : Type} (c : γ) (f : γ → Except Fault δ), (Except.ok c >>= f) = f c :=
    fun _ _ => rfl
  simp only [follow, ReaderT.run_bind, StateT.run_bind, hget, hread, hok]
  cases targets[number]? with
  | none => rfl
  | some target => rfl

theorem counts_follow (n : Node S) : Counts (follow n) := by
  cases n with
  | reference number =>
    intro targets allowance a left h
    cases allowance with
    | zero => cases h
    | succ rest =>
      have hstep : ∀ rest, ((follow (.reference number)).run targets).run (rest + 1) = _ :=
        run_follow_reference number
      cases htarget : targets[number]? with
      | none =>
        rw [hstep, htarget] at h
        cases h
      | some target =>
        rw [hstep, htarget] at h
        cases h
        refine ⟨1, rfl, fun left => ?_⟩
        rw [hstep, htarget]
        rfl
  | _ => exact .pure _

theorem counts_followUntagged (n : Node S) : Counts (followUntagged n) :=
  (counts_follow n).bind fun _ => .pure _

theorem counts_settled (outcome : Except Fault α) : Counts (settled outcome : Reading S α) := by
  cases outcome with
  | ok a => exact .pure a
  | error fault => exact .throw fault

section

variable (fmt : Format S)

theorem counts_readTextAs (expected : Expected) (n : Node S) : Counts (fmt.readTextAs expected n) := by
  refine (counts_followUntagged n).bind fun m => ?_
  cases m with
  | scalar s =>
    dsimp only
    split
    · exact .pure _
    · exact .throw _
  | _ => exact .throw _

theorem counts_readText (n : Node S) : Counts (fmt.readText n) := counts_readTextAs fmt .text n

theorem counts_readOptional {reader : Node S → Reading S α} (hreader : ∀ n, Counts (reader n))
    (n : Node S) : Counts (fmt.readOptional reader n) := by
  have hread : ∀ (m : Node S) (isNothing : Bool), Counts
      (if isNothing then return none else return some (← reader m) : Reading S (Option α)) := by
    intro m isNothing
    cases isNothing with
    | true => exact .pure _
    | false => exact (hreader m).bind fun _ => .pure _
  refine (counts_followUntagged n).bind fun m => ?_
  cases m with
  | scalar s => exact (counts_settled _).bind (hread _)
  | _ => exact (Counts.pure false).bind (hread _)

theorem counts_readItems {reader : Node S → Reading S α} (hreader : ∀ n, Counts (reader n))
    (items : List (Node S)) : Counts (readItems reader items) := by
  induction items with
  | nil => exact .pure _
  | cons n rest ih => exact (hreader n).bind fun _ => ih.bind fun _ => .pure _

theorem counts_readSequence {inner : Option (Node S → Reading S α)}
    (hinner : ∀ reader, inner = some reader → ∀ n, Counts (reader n)) (n : Node S) :
    Counts (fmt.readSequence inner n) := by
  refine (counts_followUntagged n).bind fun m => ?_
  cases m with
  | sequence items =>
    cases inner with
    | none => exact .throw _
    | some reader => exact counts_readItems (hinner reader rfl) items
  | scalar s =>
    dsimp only
    split
    · exact .pure _
    · exact .throw _
  | _ => exact .throw _

end

/-! ### Documents -/

/-- A document is read to its end exactly if the reading follows no more references than it may. -/
theorem read_eq_ok_iff {doc : Parsed S} {reader : Node S → Reading S α}
    (hreader : Counts (reader doc.root)) {a : α} :
    doc.read reader = .ok a ↔ doc.isWhole = true ∧
      ∃ followed ≤ doc.allowance, Takes doc.targets (reader doc.root) a followed := by
  rw [Parsed.read, StateT.run'_eq]
  constructor
  · intro h
    cases hrun : ((reader doc.root).run doc.targets).run doc.allowance with
    | error fault =>
      rw [hrun] at h
      cases h
    | ok outcome =>
      obtain ⟨b, left⟩ := outcome
      rw [hrun] at h
      change (if doc.isWhole = true then Except.ok b else Except.error _) = Except.ok a at h
      split at h
      · next hwhole =>
        cases h
        obtain ⟨followed, hallowance, htakes⟩ := hreader _ _ _ _ hrun
        exact ⟨hwhole, followed, by omega, htakes⟩
      · cases h
  · rintro ⟨hwhole, followed, hle, htakes⟩
    have hrun := htakes (doc.allowance - followed)
    rw [Nat.sub_add_cancel hle] at hrun
    rw [hrun]
    change (if doc.isWhole = true then Except.ok a else Except.error _) = Except.ok a
    rw [if_pos hwhole]

end AbiLayout.Document
