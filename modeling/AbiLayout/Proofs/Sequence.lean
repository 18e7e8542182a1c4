import AbiLayout.Proofs.Emission
import Mathlib.Data.List.Forall2

/-!
# Steps over a list

One step taken on every entry of a list, in order and up to the first fault. Main statements: the whole
finishes exactly if every step does, its lines are then those of the steps, and its fault is that of the
first step that has one.
-/

namespace AbiLayout.Cpp.Emission

def fault? {α : Type} (x : Emission α) : Option RenderError :=
  match x.result with
  | .ok _ => none
  | .error e => some e

theorem fault?_eq_none_iff {α : Type} (x : Emission α) :
    x.fault? = none ↔ ∃ a, x.result = .ok a := by
  unfold fault?
  cases x.result <;> simp

theorem fault?_eq_some_iff {α : Type} (x : Emission α) (e : RenderError) :
    x.fault? = some e ↔ x.result = .error e := by
  unfold fault?
  cases x.result <;> simp

theorem fault?_bind_of_ok {α β : Type} {x : Emission α} {a : α} (h : x.result = .ok a)
    (f : α → Emission β) : (x >>= f).fault? = (f a).fault? := by
  unfold fault?
  rw [result_bind, h]
  rfl

theorem fault?_bind_of_fault {α β : Type} {x : Emission α} {e : RenderError}
    (h : x.fault? = some e) (f : α → Emission β) : (x >>= f).fault? = some e := by
  rw [fault?_eq_some_iff] at h ⊢
  rw [result_bind, h]
  rfl

/-- A step that always finishes adds no fault. -/
theorem fault?_bind_of_finishes {α β : Type} (x : Emission α) {f : α → Emission β}
    (h : ∀ a, (f a).fault? = none) : (x >>= f).fault? = x.fault? := by
  cases hx : x.fault? with
  | some e => exact fault?_bind_of_fault hx f
  | none =>
    obtain ⟨a, ha⟩ := (fault?_eq_none_iff x).1 hx
    rw [fault?_bind_of_ok ha, h a]

section

variable {α β : Type} (step : α → Emission β)

/-- Takes a step on each entry and keeps the results. -/
def each : List α → Emission (List β)
  | [] => pure []
  | a :: rest => do
    let b ← step a
    let bs ← each rest
    return b :: bs

theorem each_of_forall₂ {l : List α} {bs : List β}
    (h : List.Forall₂ (fun a b => (step a).result = .ok b) l bs) :
    each step l = ⟨l.flatMap fun a => (step a).lines, .ok bs⟩ := by
  induction h with
  | nil => rfl
  | @cons a b rest bs hb _ ih =>
    have ha : step a = ⟨(step a).lines, .ok b⟩ := by rw [← hb]
    rw [each, ih, ha, mk_ok_bind, mk_ok_bind, List.flatMap_cons]
    simp [pure, value]

theorem forall₂_of_each {l : List α} {bs : List β} (h : (each step l).result = .ok bs) :
    List.Forall₂ (fun a b => (step a).result = .ok b) l bs := by
  induction l generalizing bs with
  | nil =>
    cases h
    exact .nil
  | cons a rest ih =>
    rw [each, result_bind_eq_ok_iff] at h
    obtain ⟨b, hb, h⟩ := h
    rw [result_bind_eq_ok_iff] at h
    obtain ⟨others, hothers, h⟩ := h
    cases h
    exact .cons hb (ih hothers)

theorem fault?_each (l : List α) : (each step l).fault? = l.findSome? fun a => (step a).fault? := by
  induction l with
  | nil => rfl
  | cons a rest ih =>
    rw [each, List.findSome?_cons, ← ih]
    cases ha : (step a).fault? with
    | some e => exact fault?_bind_of_fault ha _
    | none =>
      obtain ⟨b, hb⟩ := (fault?_eq_none_iff _).1 ha
      rw [fault?_bind_of_ok hb]
      exact fault?_bind_of_finishes _ fun _ => rfl

end

end AbiLayout.Cpp.Emission
