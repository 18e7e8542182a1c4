import AbiLayout.Proofs.Declarators.Refusal

/-!
# Types that can be declared

Main statement: a type can be declared through a declarator exactly if no array on the way through its
pointers, arrays and atomics is empty or has elements of type void, and the type itself is void only where
the declarator is a pointer or has no text.
-/

namespace AbiLayout

open Cpp

/-- Following a type through pointers, arrays and atomics leads to another, or to the type itself. -/
inductive AbiType.LeadsTo : AbiType → AbiType → Prop where
  | refl (t : AbiType) : LeadsTo t t
  | pointer {target u : AbiType} {constant : Bool} (h : LeadsTo target u) :
    LeadsTo (.pointer target constant) u
  | array {element u : AbiType} {count : UInt64} (h : LeadsTo element u) :
    LeadsTo (.array element count) u
  | atomic {target u : AbiType} (h : LeadsTo target u) : LeadsTo (.atomic target) u

/-- Every array on the way has elements, and they are not void. -/
def AbiType.ArraysFilled (t : AbiType) : Prop :=
  ∀ element count, t.LeadsTo (.array element count) → count ≠ 0 ∧ element ≠ .void

/-- On the way through a type void is met only as the target of a pointer. -/
structure AbiType.VoidOnlyPointedTo (t : AbiType) : Prop where
  notVoid : t ≠ .void
  elements : ∀ element count, t.LeadsTo (.array element count) → element ≠ .void
  atomics : ∀ target, t.LeadsTo (.atomic target) → target ≠ .void

namespace AbiType

theorem arraysFilled_pointer_iff (target : AbiType) (constant : Bool) :
    (pointer target constant).ArraysFilled ↔ target.ArraysFilled := by
  constructor
  · exact fun h element count hway => h element count (.pointer hway)
  · rintro h element count ⟨⟩
    exact h element count ‹_›

theorem arraysFilled_atomic_iff (target : AbiType) :
    (atomic target).ArraysFilled ↔ target.ArraysFilled := by
  constructor
  · exact fun h element count hway => h element count (.atomic hway)
  · rintro h element count ⟨⟩
    exact h element count ‹_›

theorem arraysFilled_array_iff (element : AbiType) (count : UInt64) :
    (array element count).ArraysFilled ↔ count ≠ 0 ∧ element ≠ .void ∧ element.ArraysFilled := by
  constructor
  · intro h
    obtain ⟨hcount, hvoid⟩ := h element count (.refl _)
    exact ⟨hcount, hvoid, fun inner n hway => h inner n (.array hway)⟩
  · rintro ⟨hcount, hvoid, h⟩ inner n ⟨⟩
    · exact ⟨hcount, hvoid⟩
    · exact h inner n ‹_›

theorem isEmpty_text_array (d : Declarator) (count : UInt64) :
    (Declarator.array d count).text.isEmpty = false := by
  rw [Bool.eq_false_iff, Ne, String.isEmpty_iff, ← String.toList_inj, Declarator.text]
  simp

/-- A void can stand behind a pointer, or where nothing is declared; all else depends on the arrays alone. -/
theorem refusal?_eq_none_iff (t : AbiType) (d : Declarator) :
    t.refusal? d = none ↔ (t = .void → (d.isPointer || d.text.isEmpty) = true) ∧ t.ArraysFilled := by
  cases t with
  | void =>
    have hfilled : void.ArraysFilled := by
      rintro element count ⟨⟩
    rw [refusal?]
    split
    · next h => exact ⟨fun _ => ⟨fun _ => h, hfilled⟩, fun _ => rfl⟩
    · next h => exact ⟨fun hc => absurd hc (Option.some_ne_none _), fun hc => absurd (hc.1 rfl) h⟩
  | atomic target =>
    -- the target is spelled on its own, without a declarator, and there a void passes
    rw [refusal?, refusal?_eq_none_iff target, arraysFilled_atomic_iff]
    simp [Declarator.nameless, Declarator.text]
  | pointer target constant =>
    rw [refusal?, refusal?_eq_none_iff target, arraysFilled_pointer_iff]
    simp [Declarator.isPointer]
  | array element count =>
    rw [refusal?, arraysFilled_array_iff]
    split
    · next hzero => simp [hzero]
    · next hcount =>
      rw [refusal?_eq_none_iff element, isEmpty_text_array]
      simp [Declarator.isPointer, hcount]
  | _ =>
    refine ⟨fun _ => ⟨?_, ?_⟩, fun _ => rfl⟩
    · rintro ⟨⟩
    · rintro element count ⟨⟩

theorem VoidOnlyPointedTo.arraysFilled {t : AbiType} (hplaces : t.VoidOnlyPointedTo)
    (hcount : ∀ element count, t.LeadsTo (.array element count) → count ≠ 0) : t.ArraysFilled :=
  fun element count hway => ⟨hcount element count hway, hplaces.elements element count hway⟩

end AbiType

end AbiLayout
