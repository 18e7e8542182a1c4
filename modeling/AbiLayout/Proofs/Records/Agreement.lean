import AbiLayout.Cpp.Declaration
import AbiLayout.Proofs.Records.Fault

/-!
# Records and their offsets agree

The body of a record and the offsets asserted behind it come from two walks over the members. Main
statement: a record that is defined is a body followed by the assertions of its layout, the body
declares one field for every shared offset that is not the length of a view, under the same path and in
the same order, and every shared offset is asserted once.
-/

namespace AbiLayout.Cpp

/-- The generated paths of the offsets that are a field of their own: the length of a view is part of
the view. -/
def fieldPaths (offsets : List SharedOffset) : List String :=
  (offsets.filter fun o => o.kind != .rangeLength).map SharedOffset.generated

theorem fieldPaths_append (a b : List SharedOffset) :
    fieldPaths (a ++ b) = fieldPaths a ++ fieldPaths b := by
  simp [fieldPaths]

theorem fieldPaths_rangeOffsets (path : DualPath) (lengthMember : Option String)
    (name baseName lengthName : String) :
    fieldPaths (rangeOffsets path lengthMember name baseName lengthName) = [path.generated name] := by
  cases lengthMember <;> rfl

section

variable (s : RecordSettings) (lengthMember : Option String)

mutual

theorem paths_outlineMember (scope : String) (visible : List String) (path : DualPath) (m : Member) :
    (outlineMember s scope visible m).paths path.generatedLead =
      fieldPaths (memberOffsets path lengthMember m) := by
  cases m with
  | simple name type => rfl
  | variant alternatives =>
    rw [outlineMember, Outline.paths, memberOffsets]
    exact pathsAll_outlineAlternatives scope visible path alternatives
  | range name target constant baseName lengthName =>
    rw [outlineMember, Outline.paths, memberOffsets, fieldPaths_rangeOffsets]
    rfl

theorem pathsAll_outlineMembers (scope : String) (visible : List String) (path : DualPath)
    (ms : List Member) :
    Outline.pathsAll path.generatedLead (outlineMembers s scope visible ms) =
      fieldPaths (membersOffsets path lengthMember ms) := by
  cases ms with
  | nil => rfl
  | cons m rest =>
    rw [outlineMembers, Outline.pathsAll, membersOffsets, fieldPaths_append,
      paths_outlineMember scope visible path m, pathsAll_outlineMembers scope visible path rest]

theorem pathsAll_outlineAlternative (scope : String) (visible : List String) (path : DualPath)
    (a : Alternative) :
    Outline.pathsAll path.generatedLead (outlineAlternative s scope visible a) =
      fieldPaths (alternativeOffsets path lengthMember a) := by
  match a with
  | .mk none members =>
    rw [outlineAlternative, alternativeOffsets]
    exact pathsAll_outlineMembers scope visible path members
  | .mk (some name) members =>
    rw [outlineAlternative, alternativeOffsets, Outline.pathsAll, Outline.paths, Outline.pathsAll,
      List.append_nil]
    exact pathsAll_outlineMembers _ _ (path.into name) members

theorem pathsAll_outlineAlternatives (scope : String) (visible : List String) (path : DualPath)
    (as : List Alternative) :
    Outline.pathsAll path.generatedLead (outlineAlternatives s scope visible as) =
      fieldPaths (alternativesOffsets path lengthMember as) := by
  cases as with
  | nil => rfl
  | cons a rest =>
    rw [outlineAlternatives, Outline.pathsAll_append, alternativesOffsets, fieldPaths_append,
      pathsAll_outlineAlternative scope visible path a,
      pathsAll_outlineAlternatives scope visible path rest]

end

end

/-! ### A record that is defined -/

/-- The definition of a record, with the assertions behind it. -/
structure RecordDefinition where
  name : String
  cname : String
  body : List Body
  offsets : List SharedOffset

def RecordDefinition.lines (d : RecordDefinition) : List String :=
  ("struct " ++ d.name ++ " \x7b") :: Body.linesAll 1 d.body ++
    ["\x7d;", equalityAssertion ("sizeof(" ++ d.name ++ ")") ("sizeof(" ++ d.cname ++ ")"),
      equalityAssertion ("alignof(" ++ d.name ++ ")") ("alignof(" ++ d.cname ++ ")")] ++
    d.offsets.map (offsetAssertion d.name d.cname) ++ [""]

/-- The definition of a record whose body is known. -/
def Record.definition (s : RecordSettings) (lead : String) (r : Record) (body : List Body) :
    RecordDefinition :=
  ⟨mangle r.name, (canonical lead).named r.name, body, sharedOffsets r.members s.rangeLengthMember⟩

theorem defineRecord_of_body (s : RecordSettings) (lead : String) (r : Record) (body : List Body)
    (hscope : scopeFault (mangle r.name) r.members = none)
    (hbody : Body.outlineAll body = outlineRecord s r) :
    defineRecord s lead r = ⟨(Record.definition s lead r body).lines,
      .ok (sharedOffsets r.members s.rangeLengthMember).length⟩ := by
  rw [defineRecord, ← hbody, hscope, Body.emitAll_outlineAll]
  simp [Emission.line, Emission.check, Emission.mk_ok_bind, assertLayout, Emission.block,
    RecordDefinition.lines, Record.definition, pure, Emission.value]

theorem exists_body_of_defineRecord {s : RecordSettings} {lead : String} {r : Record} {n : Nat}
    (h : (defineRecord s lead r).result = .ok n) :
    scopeFault (mangle r.name) r.members = none ∧
      ∃ body, Body.outlineAll body = outlineRecord s r := by
  rw [defineRecord, Emission.result_bind_eq_ok_iff] at h
  obtain ⟨_, _, h⟩ := h
  obtain ⟨_, hscope, h⟩ := (Emission.result_bind_eq_ok_iff _ _ _).1 h
  obtain ⟨_, hbody, _⟩ := (Emission.result_bind_eq_ok_iff _ _ _).1 h
  rw [Emission.check_result_eq_ok_iff] at hscope
  rw [Outline.result_emitAll, Emission.check_result_eq_ok_iff] at hbody
  exact ⟨hscope, exists_body_of_members s _ _ r.members hbody⟩

/-- The walk that writes a record and the walk that collects its offsets agree: the fields of the body
are the offsets that are no length of a view, path by path, and behind the body every offset is
asserted, and counted, once. -/
theorem defineRecord_agrees (s : RecordSettings) (lead : String) (r : Record) (n : Nat)
    (h : (defineRecord s lead r).result = .ok n) :
    ∃ d : RecordDefinition,
      (defineRecord s lead r).lines = d.lines ∧
      d.name = mangle r.name ∧ d.cname = (canonical lead).named r.name ∧
      (∀ lengthMember,
        Body.pathsAll "" d.body = fieldPaths (sharedOffsets r.members lengthMember)) ∧
      d.offsets = sharedOffsets r.members s.rangeLengthMember ∧ n = d.offsets.length := by
  obtain ⟨hscope, body, hbody⟩ := exists_body_of_defineRecord h
  have hdef := defineRecord_of_body s lead r body hscope hbody
  refine ⟨Record.definition s lead r body, ?_, rfl, rfl, ?_, rfl, ?_⟩
  · rw [hdef]
  · intro lengthMember
    have hpaths := Body.pathsAll_outlineAll "" body
    rw [hbody] at hpaths
    rw [Record.definition, ← hpaths]
    exact pathsAll_outlineMembers s lengthMember _ _ .root r.members
  · rw [hdef] at h
    exact (Except.ok.inj h).symm

/-- A record whose variant hoists a range and nests an alternative that is named by a reserved word. -/
def taggedEvent : Record where
  name := "event"
  members :=
    [.simple "type" (.int .uint16),
      .variant
        [.mk none [.range "data" .void true "data" "data_len"],
          .mk (some "private")
            [.simple "count" (.int .uint64),
              .variant [.mk (some "inner") [.simple "fd" (.pointer (.int .char) true)]]]]]

theorem defineRecord_agrees_taggedEvent :
    (defineRecord ⟨"cloudabi", "mstd::range", some "_size"⟩ "cloudabi_" taggedEvent).result = .ok 5 ∧
    ∃ d : RecordDefinition,
      (defineRecord ⟨"cloudabi", "mstd::range", some "_size"⟩ "cloudabi_" taggedEvent).lines = d.lines ∧
      d.name = mangle "event" ∧ d.cname = (canonical "cloudabi_").named "event" ∧
      (∀ lengthMember,
        Body.pathsAll "" d.body = fieldPaths (sharedOffsets taggedEvent.members lengthMember)) ∧
      d.offsets = sharedOffsets taggedEvent.members (some "_size") ∧ 5 = d.offsets.length := by
  have h : (defineRecord ⟨"cloudabi", "mstd::range", some "_size"⟩ "cloudabi_"
      taggedEvent).result = .ok 5 := by rfl
  exact ⟨h, defineRecord_agrees _ _ taggedEvent 5 h⟩

end AbiLayout.Cpp
