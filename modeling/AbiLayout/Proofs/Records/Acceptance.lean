import AbiLayout.Proofs.Records.DistinctNames
import AbiLayout.Proofs.Records.FirstFault
import Mathlib.Data.List.Duplicate

/-!
# Records that can be defined

A record is refused where a scope of it declares a name twice and where a member has a type that cannot be
declared. Main statement: these are the only reasons, at every depth, and a name that the record itself
declares twice is reported before anything else.
-/

namespace AbiLayout.Cpp

/-! ### Members and scopes without fault -/

/-- Why a member can have no field. -/
def FieldMember.refusal? : FieldMember → Option RenderError
  | .simple name type => type.refusal? (.name (mangle name))
  | .range _ target _ => target.refusal? .nameless

-- One walk meets the scopes and the fields in the order of the lines; without a fault the order does not
-- matter, and they come apart.
mutual

theorem memberFault?_eq_none_iff (scope : String) (scopes : List (List Member)) (m : Member) :
    memberFault? scope m = none ↔ (∀ ms ∈ memberScopes m, (declaredNames ms).Nodup) ∧
      ∀ p ∈ memberSites scopes m, p.field.refusal? = none := by
  cases m with
  | simple name type => simp [memberFault?, memberScopes, memberSites, FieldMember.refusal?]
  | variant alternatives =>
    rw [memberFault?, memberScopes, memberSites]
    exact alternativesFault?_eq_none_iff scope scopes alternatives
  | range name target constant baseName lengthName =>
    simp [memberFault?, memberScopes, memberSites, FieldMember.refusal?]

theorem membersFault?_eq_none_iff (scope : String) (scopes : List (List Member)) (part : List Member) :
    membersFault? scope part = none ↔ (∀ ms ∈ membersScopes part, (declaredNames ms).Nodup) ∧
      ∀ p ∈ membersSites scopes part, p.field.refusal? = none := by
  cases part with
  | nil => simp [membersFault?, membersScopes, membersSites]
  | cons m rest =>
    rw [membersFault?, Option.or_eq_none_iff, memberFault?_eq_none_iff scope scopes m,
      membersFault?_eq_none_iff scope scopes rest, membersScopes, membersSites, List.forall_mem_append,
      List.forall_mem_append, and_and_and_comm]

theorem alternativeFault?_eq_none_iff (scope : String) (scopes : List (List Member)) (a : Alternative) :
    alternativeFault? scope a = none ↔ (∀ ms ∈ alternativeScopes a, (declaredNames ms).Nodup) ∧
      ∀ p ∈ alternativeSites scopes a, p.field.refusal? = none := by
  match a with
  | .mk none members =>
    rw [alternativeFault?, alternativeScopes, alternativeSites]
    exact membersFault?_eq_none_iff scope scopes members
  | .mk (some name) members =>
    rw [alternativeFault?, Option.or_eq_none_iff, scopeFault_eq_none_iff,
      membersFault?_eq_none_iff _ (members :: scopes) members, alternativeScopes, alternativeSites,
      List.forall_mem_cons, and_assoc]

theorem alternativesFault?_eq_none_iff (scope : String) (scopes : List (List Member))
    (as : List Alternative) :
    alternativesFault? scope as = none ↔ (∀ ms ∈ alternativesScopes as, (declaredNames ms).Nodup) ∧
      ∀ p ∈ alternativesSites scopes as, p.field.refusal? = none := by
  cases as with
  | nil => simp [alternativesFault?, alternativesScopes, alternativesSites]
  | cons a rest =>
    rw [alternativesFault?, Option.or_eq_none_iff, alternativeFault?_eq_none_iff scope scopes a,
      alternativesFault?_eq_none_iff scope scopes rest, alternativesScopes, alternativesSites,
      List.forall_mem_append, List.forall_mem_append, and_and_and_comm]

end

theorem recordFault?_eq_none_iff (r : Record) :
    recordFault? r = none ↔ (∀ ms ∈ Record.scopes r, (declaredNames ms).Nodup) ∧
      ∀ p ∈ Record.sites r, p.field.refusal? = none := by
  rw [recordFault?, Option.or_eq_none_iff, scopeFault_eq_none_iff,
    membersFault?_eq_none_iff _ [r.members] r.members, Record.scopes, List.forall_mem_cons, and_assoc]
  rfl

/-- Fields come from simple members and from ranges. -/
theorem forall_fields_iff (P : FieldMember → Prop) (sites : List Site) :
    (∀ p ∈ sites, P p.field) ↔
      (∀ name type scopes, ⟨.simple name type, scopes⟩ ∈ sites → P (.simple name type)) ∧
      ∀ name target constant scopes, ⟨.range name target constant, scopes⟩ ∈ sites →
        P (.range name target constant) := by
  constructor
  · intro h
    exact ⟨fun name type scopes hp => h _ hp, fun name target constant scopes hp => h _ hp⟩
  · rintro ⟨hsimple, hrange⟩ ⟨field, scopes⟩ hp
    cases field with
    | simple name type => exact hsimple name type scopes hp
    | range name target constant => exact hrange name target constant scopes hp

theorem forall_sites_spelled_iff (sites : List Site) :
    (∀ p ∈ sites, p.field.refusal? = none) ↔
      (∀ name type scopes, ⟨.simple name type, scopes⟩ ∈ sites →
        ∃ text, generated.declaration type (mangle name) = .ok text) ∧
      ∀ name target constant scopes, ⟨.range name target constant, scopes⟩ ∈ sites →
        ∃ text, generated.spell target = .ok text := by
  simp only [← faultOf_eq_none_iff, faultOf_declaration, faultOf_spell]
  exact forall_fields_iff (fun field => field.refusal? = none) sites

/-! ### Names that are declared twice -/

theorem duplicate_of_firstRepeatAfter {seen names : List String} {x : String}
    (h : firstRepeatAfter seen names = some x) : (x ∈ seen ∧ x ∈ names) ∨ names.Duplicate x := by
  induction names generalizing seen with
  | nil => cases h
  | cons name rest ih =>
    rw [firstRepeatAfter] at h
    split at h
    · next hseen =>
      cases h
      exact .inl ⟨by simpa using hseen, List.mem_cons_self ..⟩
    · rcases ih h with ⟨hseen, hrest⟩ | hrest
      · rcases List.mem_cons.1 hseen with rfl | hseen
        · exact .inr (List.Mem.duplicate_cons_self hrest)
        · exact .inl ⟨hseen, List.mem_cons_of_mem _ hrest⟩
      · exact .inr (hrest.duplicate_cons name)

theorem exists_of_scopeFault (scope : String) {ms : List Member} (h : ¬ (declaredNames ms).Nodup) :
    ∃ name, (declaredNames ms).Duplicate name ∧
      scopeFault scope ms = some (.duplicateIdentifier scope name) := by
  rw [scopeFault]
  cases hfirst : firstRepeat (declaredNames ms) with
  | none => exact absurd ((firstRepeat_eq_none_iff _).1 hfirst) h
  | some name =>
    rcases duplicate_of_firstRepeatAfter hfirst with ⟨hseen, _⟩ | htwice
    · cases hseen
    · exact ⟨name, htwice, rfl⟩

/-! ### Records -/

/-- A record is defined exactly if each of its scopes, its own and that of every named alternative, declares
different names, and the type of each simple member and the target of each range, at any depth, can be
spelled outside of all records. A name that the record itself declares twice is reported whatever else is
wrong. -/
theorem defineRecord_finishes_iff (s : RecordSettings) (lead : String) (r : Record) :
    ((∃ n, (defineRecord s lead r).result = .ok n) ↔
      (∀ ms ∈ Record.scopes r, (declaredNames ms).Nodup) ∧
      (∀ name type scopes, ⟨.simple name type, scopes⟩ ∈ Record.sites r →
        ∃ text, generated.declaration type (mangle name) = .ok text) ∧
      ∀ name target constant scopes, ⟨.range name target constant, scopes⟩ ∈ Record.sites r →
        ∃ text, generated.spell target = .ok text) ∧
    (¬ (declaredNames r.members).Nodup → ∃ name, (declaredNames r.members).Duplicate name ∧
      (defineRecord s lead r).result = .error (.duplicateIdentifier (mangle r.name) name)) := by
  constructor
  · rw [← Emission.fault?_eq_none_iff, defineRecord_fault?, recordFault?_eq_none_iff, forall_sites_spelled_iff]
  · intro htwice
    obtain ⟨name, hname, hfault⟩ := exists_of_scopeFault (mangle r.name) htwice
    refine ⟨name, hname, ?_⟩
    rw [← Emission.fault?_eq_some_iff, defineRecord_fault?, recordFault?, hfault, Option.some_or]

/-- A name of the record is declared anew in the scope of a named alternative. -/
def shadowed : Record where
  name := "shadowed"
  members :=
    [.simple "x" (.int .uint8),
      .variant
        [.mk (some "left") [.simple "x" (.int .uint16), .range "data" .void true "data" "data_len"],
          .mk none [.simple "y" (.pointer .void false)]]]

/-- A member that is hoisted takes the name of another, behind one that cannot be declared at all. -/
def clashing : Record where
  name := "clashing"
  members :=
    [.simple "v" .void, .simple "class" (.int .uint8),
      .variant [.mk none [.variant [.mk none [.simple "class_" (.int .uint16)]]]]]

theorem defineRecord_finishes_iff_shadowed_clashing :
    (∀ ms ∈ Record.scopes shadowed, (declaredNames ms).Nodup) ∧
    ¬ (declaredNames clashing.members).Nodup ∧
    ∃ name, (declaredNames clashing.members).Duplicate name ∧
      (defineRecord ⟨"cloudabi", "mstd::range", some "_size"⟩ "cloudabi_" clashing).result =
        .error (.duplicateIdentifier "clashing" name) := by
  have hdefined : (defineRecord ⟨"cloudabi", "mstd::range", some "_size"⟩ "cloudabi_" shadowed).result =
      .ok 5 := by rfl
  have htwice : ¬ (declaredNames clashing.members).Nodup := by decide +kernel
  refine ⟨((defineRecord_finishes_iff _ _ shadowed).1.1 ⟨5, hdefined⟩).1, htwice, ?_⟩
  exact (defineRecord_finishes_iff _ _ clashing).2 htwice

end AbiLayout.Cpp
