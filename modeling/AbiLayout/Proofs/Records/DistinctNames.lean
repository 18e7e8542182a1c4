import AbiLayout.Proofs.Records.Agreement

/-!
# Scopes of a record that is defined

A record has a scope of its own and one for each named alternative in it, however deep. Main statement:
if the record is defined, no scope declares a name twice.
-/

namespace AbiLayout.Cpp

mutual

def memberScopes : Member → List (List Member)
  | .simple _ _ => []
  | .variant alternatives => alternativesScopes alternatives
  | .range _ _ _ _ _ => []

/-- The scopes inside a member list: the members of every named alternative. -/
def membersScopes : List Member → List (List Member)
  | [] => []
  | m :: rest => memberScopes m ++ membersScopes rest

def alternativeScopes : Alternative → List (List Member)
  | .mk none members => membersScopes members
  | .mk (some _) members => members :: membersScopes members

def alternativesScopes : List Alternative → List (List Member)
  | [] => []
  | a :: rest => alternativeScopes a ++ alternativesScopes rest

end

def Record.scopes (r : Record) : List (List Member) := r.members :: membersScopes r.members

theorem scopeFault_eq_none_iff (scope : String) (ms : List Member) :
    scopeFault scope ms = none ↔ (declaredNames ms).Nodup := by
  rw [scopeFault, Option.map_eq_none_iff, firstRepeat_eq_none_iff]

-- An outline holds the fault of a scope where the nested record begins, so an outline without faults
-- has been through all scopes.
section

variable (s : RecordSettings)

mutual

theorem nodup_of_outlineMember (scope : String) (visible : List String) (m : Member)
    (h : (outlineMember s scope visible m).fault? = none) :
    ∀ ms ∈ memberScopes m, (declaredNames ms).Nodup := by
  cases m with
  | simple name type => simp [memberScopes]
  | variant alternatives =>
    rw [outlineMember, Outline.fault?] at h
    rw [memberScopes]
    exact nodup_of_outlineAlternatives scope visible alternatives h
  | range name target constant baseName lengthName => simp [memberScopes]

theorem nodup_of_outlineMembers (scope : String) (visible : List String) (part : List Member)
    (h : Outline.faultAll? (outlineMembers s scope visible part) = none) :
    ∀ ms ∈ membersScopes part, (declaredNames ms).Nodup := by
  cases part with
  | nil => simp [membersScopes]
  | cons m rest =>
    rw [outlineMembers, Outline.faultAll?, Option.or_eq_none_iff] at h
    have hm := nodup_of_outlineMember scope visible m h.1
    have hrest := nodup_of_outlineMembers scope visible rest h.2
    intro ms hms
    rw [membersScopes, List.mem_append] at hms
    exact hms.elim (hm ms) (hrest ms)

theorem nodup_of_outlineAlternative (scope : String) (visible : List String) (a : Alternative)
    (h : Outline.faultAll? (outlineAlternative s scope visible a) = none) :
    ∀ ms ∈ alternativeScopes a, (declaredNames ms).Nodup := by
  match a with
  | .mk none members =>
    rw [outlineAlternative] at h
    rw [alternativeScopes]
    exact nodup_of_outlineMembers scope visible members h
  | .mk (some name) members =>
    rw [outlineAlternative, Outline.faultAll?, Outline.fault?] at h
    simp only [Option.or_eq_none_iff] at h
    obtain ⟨⟨hown, hbody⟩, _⟩ := h
    rw [scopeFault_eq_none_iff] at hown
    have hinner := nodup_of_outlineMembers _ _ members hbody
    rw [alternativeScopes]
    exact List.forall_mem_cons.2 ⟨hown, hinner⟩

theorem nodup_of_outlineAlternatives (scope : String) (visible : List String) (as : List Alternative)
    (h : Outline.faultAll? (outlineAlternatives s scope visible as) = none) :
    ∀ ms ∈ alternativesScopes as, (declaredNames ms).Nodup := by
  cases as with
  | nil => simp [alternativesScopes]
  | cons a rest =>
    rw [outlineAlternatives, Outline.faultAll?_append, Option.or_eq_none_iff] at h
    have ha := nodup_of_outlineAlternative scope visible a h.1
    have hrest := nodup_of_outlineAlternatives scope visible rest h.2
    intro ms hms
    rw [alternativesScopes, List.mem_append] at hms
    exact hms.elim (ha ms) (hrest ms)

end

end

/-- In a record that is defined, every scope declares pairwise different names. -/
theorem nodup_of_defineRecord {s : RecordSettings} {lead : String} {r : Record} {n : Nat}
    (h : (defineRecord s lead r).result = .ok n) :
    ∀ ms ∈ Record.scopes r, (declaredNames ms).Nodup := by
  rw [defineRecord, Emission.result_bind_eq_ok_iff] at h
  obtain ⟨_, _, h⟩ := h
  obtain ⟨_, hscope, h⟩ := (Emission.result_bind_eq_ok_iff _ _ _).1 h
  obtain ⟨_, hbody, _⟩ := (Emission.result_bind_eq_ok_iff _ _ _).1 h
  rw [Emission.check_result_eq_ok_iff, scopeFault_eq_none_iff] at hscope
  rw [Outline.result_emitAll, Emission.check_result_eq_ok_iff] at hbody
  have hinner := nodup_of_outlineMembers s _ _ r.members hbody
  exact List.forall_mem_cons.2 ⟨hscope, hinner⟩

end AbiLayout.Cpp
