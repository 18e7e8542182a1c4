import AbiLayout.Cpp.Spelling
import AbiLayout.Proofs.Emission

/-!
# Types that are refused

What can be wrong with a type shows in its pointers and arrays and in the void at its end, and what is
reported for it is built from the declarator alone. Main statement: every spelling refuses the same types
in the same places, each with the same fault.
-/

namespace AbiLayout.Cpp

/-- The fault of a step that has no value. -/
def faultOf {α : Type} : Except RenderError α → Option RenderError
  | .ok _ => none
  | .error e => some e

theorem faultOf_eq_some_iff {α : Type} (x : Except RenderError α) (e : RenderError) :
    faultOf x = some e ↔ x = .error e := by
  cases x <;> simp [faultOf]

theorem faultOf_eq_none_iff {α : Type} (x : Except RenderError α) :
    faultOf x = none ↔ ∃ a, x = .ok a := by
  cases x <;> simp [faultOf]

/-- A step that always has a value adds no fault. -/
theorem faultOf_bind_pure {α β : Type} (x : Except RenderError α) (f : α → β) :
    faultOf (do return f (← x)) = faultOf x := by
  cases x <;> rfl

end AbiLayout.Cpp

namespace AbiLayout

open Cpp

/-- Why nothing of this type can be declared through a declarator: the first array without elements on
the way from the name, or the void that is met at the end. -/
def AbiType.refusal? : AbiType → Declarator → Option RenderError
  | .void, d => if d.isPointer || d.text.isEmpty then none else some (.voidValue d.text)
  | .atomic target, _ => target.refusal? .nameless
  | .pointer target _, d => target.refusal? (.pointer d)
  | .array element count, d =>
    if count = 0 then some (.zeroLengthArray d.text) else element.refusal? (.array d count)
  | .int _, _ | .aliasOf _ _, _ | .intLike _, _ | .userDefined _, _ | .record _ _, _ => none

end AbiLayout

namespace AbiLayout.Cpp

theorem faultOf_bind_arrayIn {β : Type} (d : Declarator) (count : UInt64)
    (f : Declarator → Except RenderError β) :
    faultOf (arrayIn d count >>= f) =
      if count = 0 then some (.zeroLengthArray d.text) else faultOf (f (.array d count)) := by
  unfold arrayIn
  split <;> rfl

-- A type that is spelled on its own is one that is declared without a name, but for the void, which has a
-- case of its own on both sides.
mutual

theorem faultOf_spell (s : Spelling) (t : AbiType) :
    faultOf (s.spell t) = t.refusal? .nameless := by
  cases t with
  | atomic target =>
    rw [Spelling.spell, AbiType.refusal?, ← faultOf_spell s target]
    exact faultOf_bind_pure _ _
  | pointer target constant =>
    rw [Spelling.spell, AbiType.refusal?, ← faultOf_spellThrough s target]
    exact faultOf_bind_pure _ _
  | array element count =>
    rw [Spelling.spell, AbiType.refusal?, faultOf_bind_arrayIn, faultOf_spellThrough s element]
  | _ => rfl

theorem faultOf_spellThrough (s : Spelling) (t : AbiType) (d : Declarator) :
    faultOf (s.spellThrough t d) = t.refusal? d := by
  cases t with
  | void =>
    rw [Spelling.spellThrough, AbiType.refusal?, voidIn]
    split <;> rfl
  | atomic target =>
    rw [Spelling.spellThrough, AbiType.refusal?, ← faultOf_spell s target]
    exact faultOf_bind_pure _ _
  | pointer target constant =>
    rw [Spelling.spellThrough, AbiType.refusal?, ← faultOf_spellThrough s target]
    exact faultOf_bind_pure _ _
  | array element count =>
    rw [Spelling.spellThrough, AbiType.refusal?, faultOf_bind_arrayIn, faultOf_spellThrough s element]
  | _ => rfl

end

theorem faultOf_declaration (s : Spelling) (t : AbiType) (name : String) :
    faultOf (s.declaration t name) = t.refusal? (.name name) :=
  faultOf_spellThrough s t (.name name)

end AbiLayout.Cpp
