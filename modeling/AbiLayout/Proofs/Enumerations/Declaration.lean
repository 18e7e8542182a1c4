import AbiLayout.Proofs.Enumerations.Acceptance
import AbiLayout.Proofs.Enumerations.Lines

/-!
# Declarations of enumerations

The names of the values, the zero of a flags type, the width of the names and the lines come from four
walks over the same values. Main statement: an enumeration is declared exactly if it has no fault, and
what is then written has every value once and in order, its name padded to the widest one, a single zero
if it is a flags type, and the three operators of a flags type and of no other.
-/

namespace AbiLayout

open Cpp

/-- The lines declare the enumeration `x`, which has all values of `e`. -/
structure IntLike.DeclaredBy (lead : String) (e : IntLike) (x : Enumeration) (lines : List String) :
    Prop where
  name : x.name = mangle e.name
  underlying : x.underlying = (canonical lead).named e.name
  written : lines = x.lines (valueWidth e) ++ x.operators
  enumerators : x.enumerators =
    (if e.flags && e.values.all (fun v => mangle v.name != "none") then [⟨"none", "0"⟩] else []) ++
      e.values.map fun v => ⟨mangle v.name, canonicalValue lead e v⟩
  padded : ∀ v ∈ e.values, (mangle v.name).length ≤ valueWidth e
  widest : e.values ≠ [] → ∃ v ∈ e.values, (mangle v.name).length = valueWidth e
  aligned : ∀ v ∈ e.values,
    equalsColumn (Enumerator.line (valueWidth e) ⟨mangle v.name, canonicalValue lead e v⟩) =
      valueWidth e + 3
  distinct : (x.enumerators.map Enumerator.name).Nodup
  oneNone : e.flags = true → (x.enumerators.map Enumerator.name).count "none" = 1
  zeroNone : e.flags = true → ∀ y ∈ x.enumerators, y.name = "none" →
    (y = ⟨"none", "0"⟩ ∧ ∀ v ∈ e.values, mangle v.name ≠ "none") ∨
      ∃ v ∈ e.values, v.value = 0 ∧ y = ⟨mangle v.name, canonicalValue lead e v⟩
  operators : lines.filter (beginsWith operatorMark) = if e.flags then operatorHeads x.name else []

namespace Cpp

section

variable (lead : String) {e : IntLike}

theorem mem_names_declared_iff (name : String) :
    name ∈ (e.declared lead).enumerators.map Enumerator.name ↔
      ((e.flags && !e.declaresNone) = true ∧ name = noneName) ∨
        name ∈ e.values.map generatedValue := by
  rw [IntLike.names_declared, IntLike.enumeratorNames, List.mem_append]
  refine or_congr_left ?_
  split
  · next h => simp [h]
  · next h => simp [h]

/-- A zero is only put in front where no value has its name. -/
theorem nodup_names_declared (h : e.Consistent) :
    ((e.declared lead).enumerators.map Enumerator.name).Nodup := by
  rw [IntLike.names_declared, IntLike.enumeratorNames]
  split
  · next hneeds =>
    rw [Bool.and_eq_true, Bool.not_eq_true'] at hneeds
    have hfree : noneName ∉ e.values.map generatedValue := by
      intro hmem
      obtain ⟨v, hv, hname⟩ := List.mem_map.1 hmem
      exact IntLike.ne_noneName_of_free hneeds.2 v hv hname
    exact List.nodup_cons.2 ⟨hfree, h.distinct⟩
  · exact h.distinct

theorem noneName_mem_names_declared (hflags : e.flags = true) :
    noneName ∈ (e.declared lead).enumerators.map Enumerator.name := by
  rw [mem_names_declared_iff, hflags, Bool.true_and]
  cases hdeclares : e.declaresNone with
  | false => exact .inl ⟨rfl, rfl⟩
  | true =>
    obtain ⟨v, hv, hname⟩ := e.declaresNone_iff.1 hdeclares
    exact .inr (List.mem_map.2 ⟨v, hv, hname⟩)

theorem zero_of_mem_declared (h : e.Consistent) (hflags : e.flags = true) {y : Enumerator}
    (hy : y ∈ (e.declared lead).enumerators) (hname : y.name = noneName) :
    (y = ⟨noneName, "0"⟩ ∧ ∀ v ∈ e.values, generatedValue v ≠ noneName) ∨
      ∃ v ∈ e.values, v.value = 0 ∧ y = ⟨generatedValue v, canonicalValue lead e v⟩ := by
  rw [IntLike.declared, List.mem_append] at hy
  rcases hy with hy | hy
  · split at hy
    · next hneeds =>
      rw [Bool.and_eq_true, Bool.not_eq_true'] at hneeds
      exact .inl ⟨List.mem_singleton.1 hy, IntLike.ne_noneName_of_free hneeds.2⟩
    · cases hy
  · obtain ⟨v, hv, rfl⟩ := List.mem_map.1 hy
    exact .inr ⟨v, hv, h.zero hflags v hv hname, rfl⟩

theorem declaredBy_of_consistent (h : e.Consistent) :
    e.DeclaredBy lead (e.declared lead) (declareType lead (.intLike e)).lines := by
  have hwritten : (declareType lead (.intLike e)).lines =
      (e.declared lead).lines (valueWidth e) ++ (e.declared lead).operators := by
    rw [declareType_of_consistent lead h]
  have hall : (e.values.all fun v => mangle v.name != "none") = !e.declaresNone := e.all_ne_noneName
  exact
    { name := rfl
      underlying := rfl
      written := hwritten
      enumerators := by
        rw [hall]
        rfl
      padded := fun v hv => length_le_valueWidth hv
      widest := exists_length_eq_valueWidth
      aligned := by
        intro v hv
        have hle : (mangle v.name).length ≤ valueWidth e := length_le_valueWidth hv
        have hcolumn := Enumerator.equalsColumn_line (valueWidth e)
          ⟨mangle v.name, canonicalValue lead e v⟩ (isFragment_mangle v.name)
        rw [hcolumn, Nat.max_eq_left hle]
      distinct := nodup_names_declared lead h
      oneNone := fun hflags =>
        List.count_eq_one_of_mem (nodup_names_declared lead h) (noneName_mem_names_declared lead hflags)
      zeroNone := fun hflags y hy hname => zero_of_mem_declared lead h hflags hy hname
      operators := by
        rw [hwritten, Enumeration.filter_operatorMark]
        rfl }

end

/-- An enumeration is declared exactly if its values have different names and, where it is a flags type, a
value that takes the name of the empty set is zero; otherwise a name is reported that its scope declares
twice. What is declared has all values, in order, and a flags type has one zero more exactly where none of
its values takes that name. -/
theorem declareType_intLike_complete (lead : String) (e : IntLike) :
    ((declareType lead (.intLike e)).result = .ok () ↔
      (e.values.map fun v => mangle v.name).Nodup ∧
        (e.flags = true → ∀ v ∈ e.values, mangle v.name = "none" → v.value = 0)) ∧
    ((declareType lead (.intLike e)).result ≠ .ok () → ∃ name,
      (declareType lead (.intLike e)).result = .error (.duplicateIdentifier (mangle e.name) name)) ∧
    ((declareType lead (.intLike e)).result = .ok () →
      ∃ x, e.DeclaredBy lead x (declareType lead (.intLike e)).lines) := by
  have hiff := declareType_intLike_eq_ok_iff lead e
  refine ⟨?_, fun hrefused => ?_, fun hok => ⟨_, declaredBy_of_consistent lead (hiff.1 hok)⟩⟩
  · rw [hiff]
    exact ⟨fun h => ⟨h.distinct, h.zero⟩, fun h => ⟨h.1, h.2⟩⟩
  · cases hresult : (declareType lead (.intLike e)).result with
    | ok u => exact absurd hresult hrefused
    | error f =>
      have hfault := (Emission.fault?_eq_some_iff _ f).2 hresult
      rw [declareType_intLike_fault?] at hfault
      obtain ⟨name, rfl⟩ := exists_of_intLikeFault? hfault
      exact ⟨name, rfl⟩

/-- Flags that declare a zero of their own, behind a value whose name is a reserved word. -/
def accessFlags : IntLike :=
  ⟨"access", .uint16, true, none, [⟨"read", 1⟩, ⟨"private", 2⟩, ⟨"none", 0⟩]⟩

/-- Values that are given one name. -/
def errorCodes : IntLike := ⟨"codes", .uint16, false, none, [⟨"errno", 1⟩, ⟨"error", 2⟩]⟩

theorem declareType_intLike_complete_access :
    (declareType "cloudabi_" (.intLike accessFlags)).result = .ok () ∧
    (∃ x, accessFlags.DeclaredBy "cloudabi_" x (declareType "cloudabi_" (.intLike accessFlags)).lines ∧
      x.enumerators = [⟨"read", "CLOUDABI_ACCESS_READ"⟩, ⟨"private_", "CLOUDABI_ACCESS_PRIVATE"⟩,
        ⟨"none", "CLOUDABI_ACCESS_NONE"⟩]) ∧
    (declareType "cloudabi_" (.intLike errorCodes)).result ≠ .ok () ∧
    ∃ name, (declareType "cloudabi_" (.intLike errorCodes)).result =
      .error (.duplicateIdentifier "codes" name) := by
  obtain ⟨hok, -, hdeclared⟩ := declareType_intLike_complete "cloudabi_" accessFlags
  obtain ⟨hcodes, hrefused, -⟩ := declareType_intLike_complete "cloudabi_" errorCodes
  have haccepted := hok.2 ⟨by decide +kernel, by decide +kernel⟩
  have hclash : (declareType "cloudabi_" (.intLike errorCodes)).result ≠ .ok () := by
    intro h
    exact absurd (hcodes.1 h).1 (by decide +kernel)
  obtain ⟨x, hx⟩ := hdeclared haccepted
  refine ⟨haccepted, ⟨x, hx, ?_⟩, hclash, hrefused hclash⟩
  rw [hx.enumerators]
  decide +kernel

end Cpp

end AbiLayout
