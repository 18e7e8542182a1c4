import AbiLayout.Proofs.Documents.Accepting
import AbiLayout.Proofs.Documents.References
import Mathlib.Algebra.BigOperators.Group.List.Basic
import Mathlib.Logic.Function.Basic

/-!
# Structs by their keys

A struct is read along the entries of an object, in the order in which they stand, but what comes out can
be told without it: an object gives each field what stands under its key, if anything does. Main statement:
reading a struct comes to a draft exactly if looking up each key in the object comes to what the draft
holds for its field, and then both follow the same number of references.
-/

namespace AbiLayout.Document

variable {S : Type}

open Reading (Takes Counts takes_pure_iff not_takes_throw takes_bind_iff takes_bind_split
  takes_bind_pure_iff)

/-! ### Objects -/

/-- Each of the keys stands at most once, and nothing is broken under the others. -/
def WellKeyed (keys : List String) (entries : List (String × Node S)) : Prop :=
  ((entries.map (·.1)).filter keys.contains).Nodup ∧ ∀ e ∈ entries, e.1 ∉ keys → e.2.intact = true

instance (keys : List String) (entries : List (String × Node S)) : Decidable (WellKeyed keys entries) :=
  inferInstanceAs (Decidable (_ ∧ _))

/-- Reads the keys of entries, and leaves what stands under them as it is. -/
def Format.readKeys (fmt : Format S) : List (Node S × Node S) → Reading S (List (String × Node S))
  | [] => return []
  | (k, v) :: rest => do
    let key ← fmt.readTextAs .fieldName k
    let others ← fmt.readKeys rest
    return (key, v) :: others

/-- Reads the entries of an object in which the given keys mean something. -/
def Format.readObject (fmt : Format S) (keys : List String) (n : Node S) :
    Reading S (List (String × Node S)) := do
  let n ← followUntagged n
  match n with
  | .mapping entries => do
    let entries ← fmt.readKeys entries
    if WellKeyed keys entries then return entries else throw .malformed
  | .scalar s => if fmt.isHollow s then return [] else throw .malformed
  | _ => throw .malformed

/-- Reads what stands under a key, if anything does. -/
def readUnder {α : Type} (entries : List (String × Node S)) (key : String)
    (reader : Node S → Reading S α) : Reading S (Option α) :=
  match entries.lookup key with
  | some n => do return some (← reader n)
  | none => return none

section

variable {keys : List String} {key : String} {v : Node S} {entries : List (String × Node S)}

theorem wellKeyed_nil : WellKeyed keys ([] : List (String × Node S)) :=
  ⟨.nil, fun _ he => absurd he List.not_mem_nil⟩

theorem wellKeyed_cons_of_foreign (h : key ∉ keys) :
    WellKeyed keys ((key, v) :: entries) ↔ v.intact = true ∧ WellKeyed keys entries := by
  simp only [WellKeyed, List.map_cons, List.filter_cons, List.contains_iff_mem, h, if_false,
    List.forall_mem_cons, not_false_eq_true, true_imp_iff]
  exact and_left_comm

theorem wellKeyed_cons_of_mem (h : key ∈ keys) :
    WellKeyed keys ((key, v) :: entries) ↔ entries.lookup key = none ∧ WellKeyed keys entries := by
  have hlookup : entries.lookup key = none ↔ key ∉ entries.map (·.1) := by
    simp only [List.lookup_eq_none_iff, bne_iff_ne, List.mem_map, not_exists, not_and]
    exact forall₂_congr fun e _ => ne_comm
  simp only [WellKeyed, List.map_cons, List.filter_cons, List.contains_iff_mem, h, if_true,
    List.nodup_cons, List.mem_filter, and_true, List.forall_mem_cons, not_true_eq_false,
    false_imp_iff, true_and, hlookup, and_assoc]

end

section

variable (fmt : Format S)

theorem counts_readKeys (entries : List (Node S × Node S)) : Counts (fmt.readKeys entries) := by
  induction entries with
  | nil => exact .pure _
  | cons e rest ih =>
    exact (counts_readTextAs fmt .fieldName e.1).bind fun _ => ih.bind fun _ => .pure _

theorem counts_readObject (keys : List String) (n : Node S) : Counts (fmt.readObject keys n) := by
  refine (counts_followUntagged n).bind fun m => ?_
  cases m with
  | mapping entries =>
    refine (counts_readKeys fmt entries).bind fun keyed => ?_
    split
    · exact .pure _
    · exact .throw _
  | scalar s =>
    dsimp only
    split
    · exact .pure _
    · exact .throw _
  | _ => exact .throw _

theorem counts_readUnder {α : Type} {reader : Node S → Reading S α} (hreader : ∀ n, Counts (reader n))
    (entries : List (String × Node S)) (key : String) : Counts (readUnder entries key reader) := by
  unfold readUnder
  split
  · exact (hreader _).bind fun _ => .pure _
  · exact .pure _

variable {fmt} {targets : Array (Node S)}

theorem takes_readKeys_cons_iff {k v : Node S} {rest : List (Node S × Node S)}
    {keyed : List (String × Node S)} {followed : Nat} :
    Takes targets (fmt.readKeys ((k, v) :: rest)) keyed followed ↔
      ∃ key i others j, Takes targets (fmt.readTextAs .fieldName k) key i ∧
        Takes targets (fmt.readKeys rest) others j ∧ keyed = (key, v) :: others ∧ followed = i + j := by
  have hrest := counts_readKeys fmt rest
  rw [Format.readKeys, takes_bind_iff (counts_readTextAs fmt .fieldName k)]
  constructor
  · rintro ⟨key, i, j, hkey, h, rfl⟩
    obtain ⟨others, hothers, rfl⟩ := (takes_bind_pure_iff hrest).1 h
    exact ⟨key, i, others, j, hkey, hothers, rfl, rfl⟩
  · rintro ⟨key, i, others, j, hkey, hothers, rfl, rfl⟩
    exact ⟨key, i, j, hkey, (takes_bind_pure_iff hrest).2 ⟨others, hothers, rfl⟩, rfl⟩

end

/-! ### Structs -/

section

variable {V : Type} {targets : Array (Node S)} {reader : Node S → Reading S V}

/-- What an entry, if there is one, adds to what is held for a field: a field that is held has no entry. -/
inductive Draws (targets : Array (Node S)) (reader : Node S → Reading S V) :
    Option V → Option (Node S) → Option V → Nat → Prop
  | absent (held : Option V) : Draws targets reader held none held 0
  | present {n : Node S} {x : V} {followed : Nat} (h : Takes targets (reader n) x followed) :
      Draws targets reader none (some n) (some x) followed

theorem draws_none_iff {held drawn : Option V} {followed : Nat} :
    Draws targets reader held none drawn followed ↔ drawn = held ∧ followed = 0 := by
  constructor
  · intro h
    cases h
    exact ⟨rfl, rfl⟩
  · rintro ⟨rfl, rfl⟩
    exact .absent drawn

theorem draws_some_iff {held drawn : Option V} {n : Node S} {followed : Nat} :
    Draws targets reader held (some n) drawn followed ↔
      held = none ∧ ∃ x, Takes targets (reader n) x followed ∧ drawn = some x := by
  constructor
  · intro h
    cases h with
    | present hx => exact ⟨rfl, _, hx, rfl⟩
  · rintro ⟨rfl, x, hx, rfl⟩
    exact .present hx

theorem draws_of_held {x : V} {entry : Option (Node S)} {drawn : Option V} {followed : Nat}
    (h : Draws targets reader (some x) entry drawn followed) :
    entry = none ∧ drawn = some x ∧ followed = 0 := by
  cases h
  exact ⟨rfl, rfl, rfl⟩

theorem takes_readUnder_iff (hreader : ∀ n, Counts (reader n)) {entries : List (String × Node S)}
    {key : String} {held : Option V} {followed : Nat} :
    Takes targets (readUnder entries key reader) held followed ↔
      Draws targets reader none (entries.lookup key) held followed := by
  rw [readUnder]
  cases entries.lookup key with
  | none => rw [takes_pure_iff, draws_none_iff]
  | some n => rw [takes_bind_pure_iff (hreader n), draws_some_iff, eq_self, true_and]

end

section

variable {sh : Shape} {targets : Array (Node S)} {reader : sh.Reader S}

theorem Shape.key_injective [sh.Lawful] : Function.Injective sh.key := by
  intro f g h
  have hf := Shape.field?_key f
  rw [h, Shape.field?_key g] at hf
  exact (Option.some.inj hf).symm

/-- What entries add to a draft, field by field, and how many references each field follows. -/
def Gathers (targets : Array (Node S)) (reader : sh.Reader S) (draft : sh.Draft)
    (keyed : List (String × Node S)) (d : sh.Draft) (followed : sh.Field → Nat) : Prop :=
  ∀ f, Draws targets (reader f) (draft f) (keyed.lookup (sh.key f)) (d f) (followed f)

variable {draft d : sh.Draft} {keyed : List (String × Node S)} {followed : sh.Field → Nat}

theorem gathers_nil_iff :
    Gathers targets reader draft [] d followed ↔ d = draft ∧ followed = fun _ => 0 := by
  have hdraft : d = draft ↔ ∀ f, d f = draft f := funext_iff
  simp only [Gathers, List.lookup_nil, draws_none_iff, forall_and, hdraft, funext_iff]

theorem gathers_cons_of_foreign {key : String} {v : Node S} (h : ∀ f, sh.key f ≠ key) :
    Gathers targets reader draft ((key, v) :: keyed) d followed ↔
      Gathers targets reader draft keyed d followed := by
  have hlookup : ∀ f, ((key, v) :: keyed).lookup (sh.key f) = keyed.lookup (sh.key f) := by
    intro f
    rw [List.lookup_cons, beq_eq_false_iff_ne.2 (h f)]
  simp only [Gathers, hlookup]

/-- The first entry of a field is what the field draws; the others add to a draft that holds it. -/
theorem gathers_cons_of_field [sh.Lawful] {f : sh.Field} {v : Node S}
    (hlast : keyed.lookup (sh.key f) = none) :
    Gathers targets reader draft ((sh.key f, v) :: keyed) d followed ↔
      draft f = none ∧ ∃ x, Takes targets (reader f v) x (followed f) ∧
        Gathers targets reader (draft.set f x) keyed d (Function.update followed f 0) := by
  have hself : ((sh.key f, v) :: keyed).lookup (sh.key f) = some v := by
    rw [List.lookup_cons, beq_self_eq_true]
  have hother : ∀ g, f ≠ g → ((sh.key f, v) :: keyed).lookup (sh.key g) = keyed.lookup (sh.key g) := by
    intro g hfg
    have hkey : sh.key g ≠ sh.key f := fun heq => hfg (Shape.key_injective heq.symm)
    rw [List.lookup_cons, beq_eq_false_iff_ne.2 hkey]
  constructor
  · intro h
    have hf := h f
    rw [hself, draws_some_iff] at hf
    obtain ⟨hnone, x, hx, hd⟩ := hf
    refine ⟨hnone, x, hx, fun g => ?_⟩
    by_cases hfg : f = g
    · subst hfg
      rw [draft.set_self, hlast, hd, Function.update_self]
      exact .absent _
    · have hg := h g
      rw [hother g hfg] at hg
      rwa [draft.set_of_ne hfg, Function.update_of_ne (Ne.symm hfg)]
  · rintro ⟨hnone, x, hx, h⟩ g
    by_cases hfg : f = g
    · subst hfg
      have hf := h f
      rw [draft.set_self] at hf
      obtain ⟨-, hd, -⟩ := draws_of_held hf
      rw [hself, hnone, hd]
      exact .present hx
    · have hg := h g
      rw [hother g hfg]
      rwa [draft.set_of_ne hfg, Function.update_of_ne (Ne.symm hfg)] at hg

/-- How many references the fields follow together. -/
def Shape.total (sh : Shape) (followed : sh.Field → Nat) : Nat :=
  sh.fields.foldr (fun f sum => followed f + sum) 0

theorem Shape.total_zero (sh : Shape) : (sh.total fun _ => 0) = 0 := by
  have hfold : ∀ fields : List sh.Field, fields.foldr (fun _ sum => 0 + sum) 0 = 0 := by
    intro fields
    induction fields with
    | nil => rfl
    | cons f rest ih => rw [List.foldr_cons, ih]
  exact hfold sh.fields

theorem Shape.total_update [sh.Lawful] (followed : sh.Field → Nat) (f : sh.Field) :
    sh.total followed = followed f + sh.total (Function.update followed f 0) := by
  have hsum : ∀ g, sh.total g = (sh.fields.map g).sum := fun _ => List.foldr_map.symm
  have hsplit := fun g : sh.Field → Nat => List.sum_map_erase g (Shape.Lawful.mem_fields f)
  have hothers : (sh.fields.erase f).map (Function.update followed f 0) =
      (sh.fields.erase f).map followed := by
    refine List.map_congr_left fun g hg => ?_
    have hne := (Shape.nodup_fields.mem_erase_iff.1 hg).1
    exact Function.update_of_ne hne 0 followed
  rw [hsum, hsum, ← hsplit followed, ← hsplit (Function.update followed f 0), hothers,
    Function.update_self, Nat.zero_add]

variable {fmt : Format S}

theorem takes_pass_iff {v : Node S} {u : Unit} {k : Nat} :
    Takes targets (pass v) u k ↔ v.intact = true ∧ k = 0 := by
  unfold pass
  split
  · next h => simp [takes_pure_iff, h]
  · next h => simp [not_takes_throw, h]

theorem counts_pass (v : Node S) : Counts (pass v) := by
  unfold pass
  split
  · exact .pure _
  · exact .throw _

variable (hreader : ∀ f n, Counts (reader f n))

include hreader

theorem counts_readEntries (entries : List (Node S × Node S)) (draft : sh.Draft) :
    Counts (fmt.readEntries sh reader entries draft) := by
  induction entries generalizing draft with
  | nil => exact .pure _
  | cons e rest ih =>
    refine (counts_readTextAs fmt .fieldName e.1).bind fun key => ?_
    cases sh.field? key with
    | none => exact (counts_pass e.2).bind fun _ => ih draft
    | some f =>
      dsimp only
      split
      · exact .throw _
      · exact (hreader f e.2).bind fun x => ih (draft.set f x)

/-- One entry is passed over, or gives a field that has not been given before. -/
theorem takes_readEntries_cons_iff {n v : Node S} {rest : List (Node S × Node S)} {k : Nat} :
    Takes targets (fmt.readEntries sh reader ((n, v) :: rest) draft) d k ↔
      ∃ key i j, Takes targets (fmt.readTextAs .fieldName n) key i ∧ k = i + j ∧
        ((sh.field? key = none ∧ v.intact = true ∧
            Takes targets (fmt.readEntries sh reader rest draft) d j) ∨
          ∃ f x l m, sh.field? key = some f ∧ draft f = none ∧ Takes targets (reader f v) x l ∧
            Takes targets (fmt.readEntries sh reader rest (draft.set f x)) d m ∧ j = l + m) := by
  rw [Format.readEntries, takes_bind_iff (counts_readTextAs fmt .fieldName n)]
  refine exists_congr fun key => exists_congr fun i => exists_congr fun j => and_congr_right fun _ => ?_
  rw [and_comm]
  refine and_congr_right fun _ => ?_
  cases sh.field? key with
  | none =>
    dsimp only
    rw [takes_bind_iff (counts_pass v)]
    constructor
    · rintro ⟨_, _, m, hpass, hm, rfl⟩
      obtain ⟨hv, rfl⟩ := takes_pass_iff.1 hpass
      rw [Nat.zero_add]
      exact .inl ⟨rfl, hv, hm⟩
    · rintro (⟨-, hv, hm⟩ | ⟨f, _, _, _, hf, _⟩)
      · exact ⟨(), 0, j, takes_pass_iff.2 ⟨hv, rfl⟩, hm, (Nat.zero_add j).symm⟩
      · cases hf
  | some f =>
    dsimp only
    cases hheld : draft f with
    | some y =>
      rw [Option.isSome_some, if_pos rfl]
      constructor
      · intro h
        exact absurd h not_takes_throw
      · rintro (⟨hf, _⟩ | ⟨g, _, _, _, hf, hfree, _⟩)
        · cases hf
        · cases hf
          rw [hheld] at hfree
          cases hfree
    | none =>
      rw [Option.isSome_none, if_neg Bool.false_ne_true, takes_bind_iff (hreader f v)]
      constructor
      · rintro ⟨x, l, m, hx, hm, rfl⟩
        exact .inr ⟨f, x, l, m, rfl, hheld, hx, hm, rfl⟩
      · rintro (⟨hf, _⟩ | ⟨g, x, l, m, hf, _, hx, hm, rfl⟩)
        · cases hf
        · cases hf
          exact ⟨x, l, m, hx, hm, rfl⟩

/-- Reading entries adds to a draft what they add field by field, after their keys have been read. -/
theorem takes_readEntries_iff [sh.Lawful] {entries : List (Node S × Node S)} {draft : sh.Draft}
    {k : Nat} :
    Takes targets (fmt.readEntries sh reader entries draft) d k ↔
      ∃ keyed i followed, Takes targets (fmt.readKeys entries) keyed i ∧
        WellKeyed (sh.fields.map sh.key) keyed ∧ Gathers targets reader draft keyed d followed ∧
        k = i + sh.total followed := by
  induction entries generalizing draft k with
  | nil =>
    rw [Format.readEntries, Format.readKeys, takes_pure_iff]
    constructor
    · rintro ⟨rfl, rfl⟩
      refine ⟨[], 0, fun _ => 0, takes_pure_iff.2 ⟨rfl, rfl⟩, wellKeyed_nil, gathers_nil_iff.2 ⟨rfl, rfl⟩, ?_⟩
      rw [sh.total_zero]
    · rintro ⟨keyed, i, followed, hkeys, -, hgathers, rfl⟩
      obtain ⟨rfl, rfl⟩ := takes_pure_iff.1 hkeys
      obtain ⟨rfl, rfl⟩ := gathers_nil_iff.1 hgathers
      exact ⟨rfl, by rw [sh.total_zero]⟩
  | cons e rest ih =>
    obtain ⟨n, v⟩ := e
    rw [takes_readEntries_cons_iff hreader]
    simp only [takes_readKeys_cons_iff, ih]
    constructor
    · rintro ⟨key, i, j, hkey, rfl, ⟨hforeign, hv, keyed, i', followed, hkeys, hwell, hgathers, rfl⟩ |
        ⟨f, x, l, m, hf, hfree, hx, ⟨keyed, i', followed, hkeys, hwell, hgathers, rfl⟩, rfl⟩⟩
      · rw [Shape.field?_eq_none_iff] at hforeign
        refine ⟨(key, v) :: keyed, i + i', followed, ⟨key, i, keyed, i', hkey, hkeys, rfl, rfl⟩, ?_, ?_,
          by omega⟩
        · exact (wellKeyed_cons_of_foreign (by simpa using hforeign)).2 ⟨hv, hwell⟩
        · exact (gathers_cons_of_foreign fun f => hforeign f (Shape.Lawful.mem_fields f)).2 hgathers
      · obtain rfl := Shape.key_of_field? hf
        have hheld := hgathers f
        rw [draft.set_self] at hheld
        obtain ⟨hlast, -, hzero⟩ := draws_of_held hheld
        have hupdate : Function.update (Function.update followed f l) f 0 = followed := by
          rw [Function.update_idem, ← hzero, Function.update_eq_self]
        refine ⟨(sh.key f, v) :: keyed, i + i', Function.update followed f l,
          ⟨sh.key f, i, keyed, i', hkey, hkeys, rfl, rfl⟩, ?_, ?_, ?_⟩
        · have hmem := List.mem_map_of_mem (f := sh.key) (Shape.Lawful.mem_fields f)
          exact (wellKeyed_cons_of_mem hmem).2 ⟨hlast, hwell⟩
        · rw [gathers_cons_of_field hlast, hupdate, Function.update_self]
          exact ⟨hfree, x, hx, hgathers⟩
        · rw [sh.total_update (Function.update followed f l) f, hupdate, Function.update_self]
          omega
    · rintro ⟨_, _, followed, ⟨key, i, keyed, i', hkey, hkeys, rfl, rfl⟩, hwell, hgathers, rfl⟩
      cases hf : sh.field? key with
      | none =>
        have hforeign := Shape.field?_eq_none_iff.1 hf
        rw [wellKeyed_cons_of_foreign (by simpa using hforeign)] at hwell
        rw [gathers_cons_of_foreign fun f => hforeign f (Shape.Lawful.mem_fields f)] at hgathers
        exact ⟨key, i, _, hkey, Nat.add_assoc .., .inl ⟨hf, hwell.1, keyed, i', followed, hkeys, hwell.2,
          hgathers, rfl⟩⟩
      | some f =>
        obtain rfl := Shape.key_of_field? hf
        have hmem := List.mem_map_of_mem (f := sh.key) (Shape.Lawful.mem_fields f)
        obtain ⟨hlast, hwell⟩ := (wellKeyed_cons_of_mem hmem).1 hwell
        obtain ⟨hfree, x, hx, hgathers⟩ := (gathers_cons_of_field hlast).1 hgathers
        have htotal := sh.total_update followed f
        exact ⟨sh.key f, i, _, hkey, by omega, .inr ⟨f, x, followed f, _, hf, hfree, hx, ⟨keyed, i', _, hkeys,
          hwell, hgathers, rfl⟩, rfl⟩⟩

/-! ### Structs as objects -/

omit hreader in
theorem takes_wellKeyed_iff {keys : List String} {entries : List (Node S × Node S)} {k : Nat} :
    Takes targets (do
      let entries ← fmt.readKeys entries
      if WellKeyed keys entries then return entries else throw .malformed) keyed k ↔
      Takes targets (fmt.readKeys entries) keyed k ∧ WellKeyed keys keyed := by
  rw [takes_bind_iff (counts_readKeys fmt entries)]
  constructor
  · rintro ⟨entries, i, j, hkeys, h, rfl⟩
    split at h
    · next hwell =>
      obtain ⟨rfl, rfl⟩ := takes_pure_iff.1 h
      exact ⟨hkeys, hwell⟩
    · exact absurd h not_takes_throw
  · rintro ⟨hkeys, hwell⟩
    refine ⟨keyed, k, 0, hkeys, ?_, rfl⟩
    rw [if_pos hwell, takes_pure_iff]
    exact ⟨rfl, rfl⟩

variable (hfmt : fmt.structAsSequence = false)

include hfmt

theorem counts_readStruct (n : Node S) : Counts (fmt.readStruct sh (some reader) n) := by
  refine (counts_followUntagged n).bind fun m => ?_
  cases m with
  | mapping entries => exact counts_readEntries hreader entries sh.blank
  | sequence items =>
    dsimp only
    rw [hfmt, if_neg Bool.false_ne_true]
    exact .throw _
  | scalar s =>
    dsimp only
    split
    · exact .pure _
    · exact .throw _
  | _ => exact .throw _

theorem takes_readStruct_iff_gathers [sh.Lawful] {n : Node S} {k : Nat} :
    Takes targets (fmt.readStruct sh (some reader) n) d k ↔
      ∃ keyed i j, Takes targets (fmt.readObject (sh.fields.map sh.key) n) keyed i ∧
        (∃ followed, Gathers targets reader sh.blank keyed d followed ∧ j = sh.total followed) ∧
        k = i + j := by
  have hnothing : ∀ {fault fault' : Fault} {j}, Takes targets (throw fault : Reading S sh.Draft) d j ↔
      ∃ keyed i l, Takes targets (throw fault' : Reading S (List (String × Node S))) keyed i ∧
        (∃ followed, Gathers targets reader sh.blank keyed d followed ∧ l = sh.total followed) ∧
        j = i + l := by
    simp [not_takes_throw]
  refine takes_bind_split (counts_followUntagged n) fun m j => ?_
  cases m with
  | mapping entries =>
    simp only [takes_readEntries_iff hreader, takes_wellKeyed_iff]
    constructor
    · rintro ⟨keyed, i, followed, hkeys, hwell, hgathers, rfl⟩
      exact ⟨keyed, i, _, ⟨hkeys, hwell⟩, ⟨followed, hgathers, rfl⟩, rfl⟩
    · rintro ⟨keyed, i, _, ⟨hkeys, hwell⟩, ⟨followed, hgathers, rfl⟩, rfl⟩
      exact ⟨keyed, i, followed, hkeys, hwell, hgathers, rfl⟩
  | scalar s =>
    dsimp only
    split
    · simp only [takes_pure_iff]
      constructor
      · rintro ⟨rfl, rfl⟩
        exact ⟨[], 0, 0, ⟨rfl, rfl⟩, ⟨fun _ => 0, gathers_nil_iff.2 ⟨rfl, rfl⟩, sh.total_zero.symm⟩, rfl⟩
      · rintro ⟨_, _, _, ⟨rfl, rfl⟩, ⟨followed, hgathers, rfl⟩, rfl⟩
        obtain ⟨rfl, rfl⟩ := gathers_nil_iff.1 hgathers
        exact ⟨rfl, by rw [sh.total_zero]⟩
    · exact hnothing
  | sequence items =>
    dsimp only
    rw [hfmt, if_neg Bool.false_ne_true]
    exact hnothing
  | _ => exact hnothing

/-- Reading a struct comes to what stands in an object under the key of each field, where each of them
stands at most once. -/
theorem takes_readStruct_iff [sh.Lawful] {n : Node S} {k : Nat} :
    Takes targets (fmt.readStruct sh (some reader) n) d k ↔
      ∃ keyed i followed, Takes targets (fmt.readObject (sh.fields.map sh.key) n) keyed i ∧
        (∀ f, Takes targets (readUnder keyed (sh.key f) (reader f)) (d f) (followed f)) ∧
        k = i + sh.total followed := by
  have hgathers : ∀ keyed followed, Gathers targets reader sh.blank keyed d followed ↔
      ∀ f, Takes targets (readUnder keyed (sh.key f) (reader f)) (d f) (followed f) := by
    intro keyed followed
    refine forall_congr' fun f => ?_
    rw [takes_readUnder_iff (hreader f)]
    rfl
  rw [takes_readStruct_iff_gathers hreader hfmt]
  simp only [hgathers]
  constructor
  · rintro ⟨keyed, i, _, hobject, ⟨followed, hfields, rfl⟩, rfl⟩
    exact ⟨keyed, i, followed, hobject, hfields, rfl⟩
  · rintro ⟨keyed, i, followed, hobject, hfields, rfl⟩
    exact ⟨keyed, i, _, hobject, ⟨followed, hfields, rfl⟩, rfl⟩

end

/-! ### Written objects -/

/-- The entries of an object that gives some of its keys. -/
def givenEntries (slots : List (String × Option (Node S))) : List (String × Node S) :=
  slots.filterMap fun slot => slot.2.map (slot.1, ·)

/-- An object whose keys are texts. -/
def Script.objectNode (c : Script S) (entries : List (String × Node S)) : Node S :=
  .mapping (entries.map fun e => (c.textNode e.1, e.2))

section

variable {slots : List (String × Option (Node S))} {keys : List String} {key : String}

theorem keys_givenEntries_sublist (slots : List (String × Option (Node S))) :
    ((givenEntries slots).map (·.1)).Sublist (slots.map (·.1)) := by
  induction slots with
  | nil => exact .slnil
  | cons slot rest ih =>
    obtain ⟨key, content⟩ := slot
    cases content with
    | none => exact ih.cons key
    | some n => exact ih.cons_cons key

theorem wellKeyed_givenEntries (hslots : slots.map (·.1) = keys) (hnodup : keys.Nodup) :
    WellKeyed keys (givenEntries slots) := by
  have hsublist := keys_givenEntries_sublist slots
  rw [hslots] at hsublist
  refine ⟨(hnodup.sublist hsublist).filter _, fun e he hforeign => ?_⟩
  exact absurd (hsublist.subset (List.mem_map_of_mem he)) hforeign

theorem lookup_givenEntries (hnodup : (slots.map (·.1)).Nodup) {content : Option (Node S)}
    (h : (key, content) ∈ slots) : (givenEntries slots).lookup key = content := by
  induction slots with
  | nil => exact absurd h List.not_mem_nil
  | cons slot rest ih =>
    obtain ⟨head, first⟩ := slot
    rw [List.map_cons, List.nodup_cons] at hnodup
    rcases List.mem_cons.1 h with heq | hrest
    · cases heq
      cases content with
      | none =>
        -- no later slot has the key
        refine List.lookup_eq_none_iff.2 fun e he => bne_iff_ne.2 fun hkey => hnodup.1 ?_
        exact hkey ▸ (keys_givenEntries_sublist rest).subset (List.mem_map_of_mem he)
      | some n => exact List.lookup_cons_self
    · have hmem : key ∈ rest.map (·.1) := List.mem_map_of_mem hrest
      have hne : key ≠ head := fun heq => hnodup.1 (heq ▸ hmem)
      cases first with
      | none => exact ih hnodup.2 hrest
      | some n =>
        have hskip : (givenEntries ((head, some n) :: rest)).lookup key = (givenEntries rest).lookup key := by
          change List.lookup key ((head, n) :: givenEntries rest) = _
          rw [List.lookup_cons, beq_eq_false_iff_ne.2 hne]
        rw [hskip]
        exact ih hnodup.2 hrest

theorem readObject_objectNode {c : Script S} {fmt : Format S} (hc : c.ReadBy fmt)
    {entries : List (String × Node S)} (h : WellKeyed keys entries) :
    fmt.readObject keys (c.objectNode entries) = pure entries := by
  have hkeys : fmt.readKeys (entries.map fun e => (c.textNode e.1, e.2)) = pure entries := by
    clear h
    induction entries with
    | nil => rfl
    | cons e rest ih =>
      simp only [List.map_cons, Format.readKeys, readTextAs_textNode hc, ih, pure_bind]
  simp only [Format.readObject, Script.objectNode, followUntagged_mapping, pure_bind, hkeys, if_pos h]

/-- What is written under a key of an object is read there, and nothing where it is not given. -/
theorem readUnder_givenEntries {V : Type} {reader : Node S → Reading S V} {write : V → Node S}
    (hread : ∀ v, reader (write v) = pure v) (hnodup : (slots.map (·.1)).Nodup) {held : Option V}
    (h : (key, held.map write) ∈ slots) : readUnder (givenEntries slots) key reader = pure held := by
  rw [readUnder, lookup_givenEntries hnodup h]
  cases held with
  | none => rfl
  | some v => simp only [Option.map_some, hread, pure_bind]

end

end AbiLayout.Document
