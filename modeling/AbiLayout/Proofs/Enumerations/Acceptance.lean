import AbiLayout.Proofs.Records.FirstFault
import Mathlib.Data.List.Nodup

/-!
# Enumerations that can be declared

An enumeration is refused for two values of one name, and a flags type also for a value that takes the
name of the empty set without being zero. Main statements: these are the only faults, and an enumeration
without them is declared with all its values, behind a zero of its own where a flags type has no value of
that name.
-/

namespace AbiLayout

open Cpp

/-- The names of the values are different, and the empty set of a flags type is zero. -/
structure IntLike.Consistent (e : IntLike) : Prop where
  distinct : (e.values.map generatedValue).Nodup
  zero : e.flags = true → ∀ v ∈ e.values, generatedValue v = noneName → v.value = 0

/-- Some value goes by the name of the empty set. -/
def IntLike.declaresNone (e : IntLike) : Bool := e.values.any fun v => generatedValue v == noneName

theorem IntLike.declaresNone_iff (e : IntLike) :
    e.declaresNone = true ↔ ∃ v ∈ e.values, generatedValue v = noneName := by
  simp [declaresNone]

theorem IntLike.ne_noneName_of_free {e : IntLike} (h : e.declaresNone = false) :
    ∀ v ∈ e.values, generatedValue v ≠ noneName := by
  intro v hv hname
  rw [e.declaresNone_iff.2 ⟨v, hv, hname⟩] at h
  cases h

theorem IntLike.all_ne_noneName (e : IntLike) :
    (e.values.all fun v => generatedValue v != noneName) = !e.declaresNone := by
  rw [declaresNone, List.not_any_eq_all_not]
  rfl

/-- An enumeration as it is declared where it has no fault. -/
def IntLike.declared (lead : String) (e : IntLike) : Enumeration where
  name := mangle e.name
  underlying := (canonical lead).named e.name
  flags := e.flags
  enumerators := (if e.flags && !e.declaresNone then [⟨noneName, "0"⟩] else []) ++
    declaredEnumerators lead e

/-- The names of the enumerators, a zero of its own included. -/
def IntLike.enumeratorNames (e : IntLike) : List String :=
  (if e.flags && !e.declaresNone then [noneName] else []) ++ e.values.map generatedValue

theorem IntLike.names_declared (lead : String) (e : IntLike) :
    (e.declared lead).enumerators.map Enumerator.name = e.enumeratorNames := by
  rw [declared, List.map_append, declaredEnumerators, List.map_map, enumeratorNames]
  split
  · rfl
  · rfl

namespace Cpp

/-! ### Faults -/

theorem enumerationFault_eq_none_iff (e : IntLike) :
    enumerationFault e = none ↔ (e.values.map generatedValue).Nodup := by
  rw [enumerationFault, Option.map_eq_none_iff, firstRepeat_eq_none_iff]

/-- A plain enumeration needs no zero of its own. A flags type does, unless a value has that name: then the
value decides. -/
theorem needsNone_cases (e : IntLike) :
    (e.flags = false ∧ needsNone e = .ok false) ∨
    (e.flags = true ∧ e.declaresNone = false ∧ needsNone e = .ok true) ∨
    (e.flags = true ∧ e.declaresNone = true ∧ ∃ v ∈ e.values, generatedValue v = noneName ∧
      needsNone e =
        if v.value = 0 then .ok false else .error (.duplicateIdentifier (mangle e.name) noneName)) := by
  cases hflags : e.flags with
  | false =>
    refine .inl ⟨rfl, ?_⟩
    rw [needsNone, hflags]
    rfl
  | true =>
    cases hfind : e.values.find? fun v => generatedValue v == noneName with
    | none =>
      have hfree : e.declaresNone = false := by
        rw [IntLike.declaresNone, List.any_eq_false]
        exact List.find?_eq_none.1 hfind
      refine .inr (.inl ⟨rfl, hfree, ?_⟩)
      rw [needsNone, hflags, if_pos rfl, hfind]
    | some v =>
      have hv := List.mem_of_find?_eq_some hfind
      have hname : generatedValue v = noneName := by simpa using List.find?_some hfind
      refine .inr (.inr ⟨rfl, e.declaresNone_iff.2 ⟨v, hv, hname⟩, v, hv, hname, ?_⟩)
      rw [needsNone, hflags, if_pos rfl, hfind]

theorem needsNone_eq_ok {e : IntLike} {b : Bool} (h : needsNone e = .ok b) :
    b = (e.flags && !e.declaresNone) := by
  rcases needsNone_cases e with ⟨hflags, he⟩ | ⟨hflags, hfree, he⟩ | ⟨hflags, hdeclares, v, _, _, he⟩
  · rw [he] at h
    rw [hflags]
    exact (Except.ok.inj h).symm
  · rw [he] at h
    rw [hflags, hfree]
    exact (Except.ok.inj h).symm
  · rw [he] at h
    rw [hflags, hdeclares]
    split at h
    · exact (Except.ok.inj h).symm
    · cases h

/-- Of values with different names only one can take that of the empty set. -/
theorem faultOf_needsNone_eq_none_iff {e : IntLike} (h : (e.values.map generatedValue).Nodup) :
    faultOf (needsNone e) = none ↔
      (e.flags = true → ∀ v ∈ e.values, generatedValue v = noneName → v.value = 0) := by
  rcases needsNone_cases e with ⟨hflags, he⟩ | ⟨hflags, hfree, he⟩ | ⟨hflags, _, w, hw, hnone, he⟩
  · rw [he, hflags]
    simp [faultOf]
  · rw [he]
    exact ⟨fun _ _ v hv hname => absurd hname (IntLike.ne_noneName_of_free hfree v hv), fun _ => rfl⟩
  · have hone : ∀ v ∈ e.values, generatedValue v = noneName → v = w := fun v hv hname =>
      List.inj_on_of_nodup_map h hv hw (hname.trans hnone.symm)
    rw [he]
    by_cases hzero : w.value = 0
    · rw [if_pos hzero]
      refine ⟨fun _ _ v hv hname => ?_, fun _ => rfl⟩
      rw [hone v hv hname]
      exact hzero
    · rw [if_neg hzero]
      exact ⟨fun hc => absurd hc (Option.some_ne_none _), fun hall => absurd (hall hflags w hw hnone) hzero⟩

theorem intLikeFault?_eq_none_iff (e : IntLike) : intLikeFault? e = none ↔ e.Consistent := by
  rw [intLikeFault?, Option.or_eq_none_iff, enumerationFault_eq_none_iff]
  constructor
  · rintro ⟨hdistinct, hzero⟩
    exact ⟨hdistinct, (faultOf_needsNone_eq_none_iff hdistinct).1 hzero⟩
  · rintro ⟨hdistinct, hzero⟩
    exact ⟨hdistinct, (faultOf_needsNone_eq_none_iff hdistinct).2 hzero⟩

/-- Whatever is wrong with an enumeration is reported as a name that its scope declares twice. -/
theorem exists_of_intLikeFault? {e : IntLike} {f : RenderError} (h : intLikeFault? e = some f) :
    ∃ name, f = .duplicateIdentifier (mangle e.name) name := by
  rw [intLikeFault?, Option.or_eq_some_iff] at h
  rcases h with h | ⟨_, h⟩
  · obtain ⟨name, _, rfl⟩ := Option.map_eq_some_iff.1 h
    exact ⟨name, rfl⟩
  · rw [faultOf_eq_some_iff] at h
    rcases needsNone_cases e with ⟨_, he⟩ | ⟨_, _, he⟩ | ⟨_, _, v, _, _, he⟩
    · rw [he] at h
      cases h
    · rw [he] at h
      cases h
    · rw [he] at h
      split at h
      · cases h
      · exact ⟨noneName, (Except.error.inj h).symm⟩

/-! ### What is declared -/

theorem enumeration_of_consistent (lead : String) {e : IntLike} (h : e.Consistent) :
    enumeration lead e = .ok (e.declared lead) := by
  have hfault := (enumerationFault_eq_none_iff e).2 h.distinct
  have hnone := (faultOf_needsNone_eq_none_iff h.distinct).2 h.zero
  obtain ⟨b, hb⟩ := (faultOf_eq_none_iff _).1 hnone
  rw [enumeration, hfault, hb, needsNone_eq_ok hb]
  rfl

theorem declareType_of_consistent (lead : String) {e : IntLike} (h : e.Consistent) :
    declareType lead (.intLike e) =
      ⟨(e.declared lead).lines (valueWidth e) ++ (e.declared lead).operators, .ok ()⟩ := by
  rw [declareType, enumeration_of_consistent lead h]
  rfl

theorem declareType_intLike_eq_ok_iff (lead : String) (e : IntLike) :
    (declareType lead (.intLike e)).result = .ok () ↔ e.Consistent := by
  rw [← intLikeFault?_eq_none_iff, ← declareType_intLike_fault? lead, Emission.fault?_eq_none_iff]
  exact ⟨fun h => ⟨(), h⟩, fun ⟨_, h⟩ => h⟩

end Cpp

end AbiLayout
