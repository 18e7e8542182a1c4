import AbiLayout.Cpp.Spelling
import AbiLayout.Proofs.Declarators.Reading
import AbiLayout.Proofs.Emission

/-!
# Types as chains of steps

Pointers and arrays are the steps of a type; they lead to a base, the first type on the way that is
neither. A declaration that succeeds has three parts: the mark `const ` once for every pointer with a
constant target, the spelling of the base, and a declarator that takes the steps of the type in order,
from the declared name outwards. Which pointer a mark belongs to is not written.
-/

namespace AbiLayout

open Cpp

namespace AbiType

/-- The pointer and array steps of a type, from the outside in. -/
def chain : AbiType → List Step
  | .pointer target _ => .pointer :: target.chain
  | .array element count => .array count :: element.chain
  | _ => []

/-- The type that the steps lead to: the first that is neither a pointer nor an array. -/
def base : AbiType → AbiType
  | .pointer target _ => target.base
  | .array element _ => element.base
  | t => t

/-- For every pointer step, from the outside in, whether the target is constant. -/
def constants : AbiType → List Bool
  | .pointer target constant => constant :: target.constants
  | .array element _ => element.constants
  | _ => []

theorem at_base (t : AbiType) (hp : ∀ target constant, t = .pointer target constant → False)
    (ha : ∀ element count, t = .array element count → False) :
    t.chain = [] ∧ t.base = t ∧ t.constants = [] := by
  cases t with
  | pointer target constant => exact (hp target constant rfl).elim
  | array element count => exact (ha element count rfl).elim
  | _ => exact ⟨rfl, rfl, rfl⟩

/-- The number of pointers with a constant target. -/
def constantCount (t : AbiType) : Nat := t.constants.count true

theorem constantCount_pointer (target : AbiType) (constant : Bool) :
    (pointer target constant).constantCount = constant.toNat + target.constantCount := by
  cases constant with
  | false => simp [constantCount, constants]
  | true =>
    simp only [constantCount, constants, List.count_cons_self, Bool.toNat_true]
    omega

theorem constantCount_array (element : AbiType) (count : UInt64) :
    (array element count).constantCount = element.constantCount := rfl

end AbiType

namespace Cpp

/-- The marks of several constant targets, in front of a declaration. -/
def constantMarks : Nat → String
  | 0 => ""
  | k + 1 => "const " ++ constantMarks k

theorem qualify_append_marks (constant : Bool) (k : Nat) (text : String) :
    qualify constant (constantMarks k ++ text) = constantMarks (constant.toNat + k) ++ text := by
  cases constant with
  | false => simp [qualify]
  | true =>
    have hk : true.toNat + k = k + 1 := by
      simp only [Bool.toNat_true]
      omega
    rw [hk]
    simp [qualify, constantMarks, String.append_assoc]

namespace Declarator

/-- A declarator taken one step further. -/
def step : Declarator → Step → Declarator
  | d, .pointer => .pointer d
  | d, .array count => .array d count

/-- A declarator taken further along a list of steps. -/
def along (d : Declarator) (steps : List Step) : Declarator := steps.foldl step d

theorem steps_along (d : Declarator) (l : List Step) : (d.along l).steps = d.steps ++ l := by
  induction l generalizing d with
  | nil => simp [along]
  | cons x rest ih =>
    have hx : (d.step x).steps = d.steps ++ [x] := by cases x <;> rfl
    show ((d.step x).along rest).steps = d.steps ++ x :: rest
    rw [ih, hx, List.append_assoc, List.singleton_append]

theorem declared_along (d : Declarator) (l : List Step) : (d.along l).declared = d.declared := by
  induction l generalizing d with
  | nil => rfl
  | cons x rest ih =>
    have hx : (d.step x).declared = d.declared := by cases x <;> rfl
    show ((d.step x).along rest).declared = d.declared
    rw [ih, hx]

end Declarator

/-! ### What a declaration consists of -/

theorem arrayIn_eq_ok {d e : Declarator} {count : UInt64} (h : arrayIn d count = .ok e) :
    e = d.step (.array count) := by
  unfold arrayIn at h
  split at h
  · cases h
  · exact (Except.ok.inj h).symm

theorem voidIn_eq_ok {d : Declarator} {text : String} (h : voidIn d = .ok text) :
    text = place "void" d := by
  unfold voidIn at h
  split at h
  · exact (Except.ok.inj h).symm
  · cases h

namespace Spelling

/-- At the end of its steps a type is written as on its own, in front of the declarator. -/
theorem spellThrough_base (s : Spelling) (t : AbiType) (d : Declarator) {text : String}
    (ht : t.chain = []) (h : s.spellThrough t d = .ok text) :
    ∃ leaf, s.spell t = .ok leaf ∧ text = place leaf d := by
  cases t with
  | void =>
    rw [spellThrough] at h
    exact ⟨"void", by rw [spell], voidIn_eq_ok h⟩
  | atomic target =>
    rw [spellThrough, bind_eq_ok_iff] at h
    obtain ⟨inner, hi, ht⟩ := h
    refine ⟨s.atomic inner, ?_, (Except.ok.inj ht).symm⟩
    rw [spell, hi]
    rfl
  | pointer target constant => simp [AbiType.chain] at ht
  | array element count => simp [AbiType.chain] at ht
  | _ =>
    rw [spellThrough] at h
    exact ⟨_, by rw [spell], (Except.ok.inj h).symm⟩

/-- A declaration is the marks of the constant targets, the base, and the declarator taken along the
steps of the type. -/
theorem spellThrough_eq_ok (s : Spelling) (t : AbiType) (d : Declarator) {text : String}
    (h : s.spellThrough t d = .ok text) :
    ∃ leaf, s.spell t.base = .ok leaf ∧
      text = constantMarks t.constantCount ++ place leaf (d.along t.chain) := by
  induction t using AbiType.base.induct generalizing d text with
  | case1 target constant ih =>
    rw [spellThrough, bind_eq_ok_iff] at h
    obtain ⟨inner, hi, ht⟩ := h
    obtain ⟨leaf, hl, rfl⟩ := ih (.pointer d) hi
    have htext : text = qualify constant _ := (Except.ok.inj ht).symm
    refine ⟨leaf, hl, ?_⟩
    rw [htext, qualify_append_marks, AbiType.constantCount_pointer]
    rfl
  | case2 element count ih =>
    rw [spellThrough, bind_eq_ok_iff] at h
    obtain ⟨e, he, ht⟩ := h
    rw [arrayIn_eq_ok he] at ht
    exact ih _ ht
  | case3 t hp ha =>
    obtain ⟨hc, hb, hk⟩ := AbiType.at_base t hp ha
    obtain ⟨leaf, hl, htext⟩ := spellThrough_base s t d hc h
    refine ⟨leaf, by rw [hb, hl], ?_⟩
    rw [hc, AbiType.constantCount, hk, htext]
    simp [constantMarks, Declarator.along]

end Spelling

end Cpp

end AbiLayout
