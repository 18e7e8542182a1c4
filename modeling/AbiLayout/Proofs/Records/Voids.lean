import AbiLayout.Proofs.Declarators.Acceptance
import AbiLayout.Proofs.Names.Declarable
import AbiLayout.Proofs.Records.Acceptance

/-!
# Where a record can hold void

Nothing can have a value of type void, but a pointer can lead to one. Main statement: a record is defined
exactly if its scopes declare different names, no simple member is void and every array has elements that
are not void. What an atomic holds is not asked, so that void stands only behind pointers exactly where no
atomic is met that holds one.
-/

namespace AbiLayout

namespace Cpp

theorem FieldMember.refusal?_simple_eq_none_iff (name : String) (type : AbiType) :
    (simple name type).refusal? = none ↔ type ≠ .void ∧ type.ArraysFilled := by
  have hempty : (mangle name).isEmpty = false :=
    Bool.eq_false_iff.2 fun h => mangle_ne_empty name (String.isEmpty_iff.1 h)
  rw [refusal?, AbiType.refusal?_eq_none_iff, Declarator.isPointer, Declarator.text, hempty]
  simp

/-- The target of a range is spelled on its own, where it can be void. -/
theorem FieldMember.refusal?_range_eq_none_iff (name : String) (target : AbiType) (constant : Bool) :
    (range name target constant).refusal? = none ↔ target.ArraysFilled := by
  rw [refusal?, AbiType.refusal?_eq_none_iff]
  simp [Declarator.nameless, Declarator.text]

theorem exists_defineRecord_eq_ok_iff (s : RecordSettings) (lead : String) (r : Record) :
    (∃ n, (defineRecord s lead r).result = .ok n) ↔
      (∀ ms ∈ Record.scopes r, (declaredNames ms).Nodup) ∧
      (∀ name type scopes, ⟨.simple name type, scopes⟩ ∈ Record.sites r →
        type ≠ .void ∧ type.ArraysFilled) ∧
      ∀ name target constant scopes, ⟨.range name target constant, scopes⟩ ∈ Record.sites r →
        target.ArraysFilled := by
  rw [← Emission.fault?_eq_none_iff, defineRecord_fault?, recordFault?_eq_none_iff,
    forall_fields_iff fun field => field.refusal? = none]
  simp only [FieldMember.refusal?_simple_eq_none_iff, FieldMember.refusal?_range_eq_none_iff]

/-- A record is defined exactly if every scope of it declares different names, no simple member is void
and no array, in a simple member or in the target of a range, is empty or has elements of type void. In
the simple members of a record that is defined void is met behind pointers alone exactly if no atomic holds
a void. -/
theorem defineRecord_void_places (s : RecordSettings) (lead : String) (r : Record) :
    ((∃ n, (defineRecord s lead r).result = .ok n) ↔
      (∀ ms ∈ Record.scopes r, (declaredNames ms).Nodup) ∧
      (∀ name type scopes, ⟨.simple name type, scopes⟩ ∈ Record.sites r →
        type ≠ .void ∧ type.ArraysFilled) ∧
      ∀ name target constant scopes, ⟨.range name target constant, scopes⟩ ∈ Record.sites r →
        target.ArraysFilled) ∧
    ∀ n, (defineRecord s lead r).result = .ok n →
      ∀ name type scopes, ⟨.simple name type, scopes⟩ ∈ Record.sites r →
        (type.VoidOnlyPointedTo ↔ ¬ type.LeadsTo (.atomic .void)) := by
  have haccepted := exists_defineRecord_eq_ok_iff s lead r
  refine ⟨haccepted, ?_⟩
  intro n hdefined name type scopes hsite
  obtain ⟨hvoid, hfilled⟩ := (haccepted.1 ⟨n, hdefined⟩).2.1 name type scopes hsite
  constructor
  · exact fun hplaces hway => hplaces.atomics .void hway rfl
  · intro hatomic
    refine ⟨hvoid, fun element count hway => (hfilled element count hway).2, ?_⟩
    rintro target hway rfl
    exact hatomic hway

/-- Voids behind pointers, one of them held by the atomics of an array in a nested record. -/
def handles : Record where
  name := "handles"
  members :=
    [.simple "self" (.pointer .void false),
      .variant [.mk (some "pool") [.simple "slots" (.array (.atomic (.pointer .void true)) 4)]],
      .range "data" .void true "data" "data_len"]

theorem defineRecord_void_places_handles :
    (defineRecord ⟨"cloudabi", "mstd::range", some "_size"⟩ "cloudabi_" handles).result = .ok 4 ∧
    (⟨.simple "slots" (.array (.atomic (.pointer .void true)) 4),
      [[.simple "slots" (.array (.atomic (.pointer .void true)) 4)], handles.members]⟩ : Site) ∈
        Record.sites handles ∧
    (AbiType.array (.atomic (.pointer .void true)) 4).VoidOnlyPointedTo := by
  have hdefined : (defineRecord ⟨"cloudabi", "mstd::range", some "_size"⟩ "cloudabi_" handles).result =
      .ok 4 := by rfl
  have hsite : (⟨.simple "slots" (.array (.atomic (.pointer .void true)) 4),
      [[.simple "slots" (.array (.atomic (.pointer .void true)) 4)], handles.members]⟩ : Site) ∈
        Record.sites handles := .tail _ (.head _)
  refine ⟨hdefined, hsite, ?_⟩
  refine ((defineRecord_void_places _ _ handles).2 4 hdefined _ _ _ hsite).2 ?_
  intro hway
  cases hway with
  | array hway =>
    cases hway with
    | atomic hway =>
      cases hway with
      | pointer hway => cases hway

/-- A void in an atomic goes unnoticed: the spelling of what an atomic holds starts anew, as in a place
where nothing is declared. -/
theorem atomic_void_is_declared :
    let r : Record := ⟨"r", [.simple "x" (.atomic .void)]⟩
    let emission := defineRecord ⟨"cloudabi", "mstd::range", some "_size"⟩ "cloudabi_" r
    emission.result = .ok 1 ∧ "  std::atomic<void> x;" ∈ emission.lines ∧
    Record.sites r = [⟨.simple "x" (.atomic .void), [r.members]⟩] ∧
    ¬ (AbiType.atomic .void).VoidOnlyPointedTo := by
  refine ⟨by rfl, by decide +kernel, by rfl, ?_⟩
  exact fun h => h.atomics .void (.refl _) rfl

end Cpp

end AbiLayout
