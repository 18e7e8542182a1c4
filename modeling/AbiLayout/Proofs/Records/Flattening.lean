import AbiLayout.Proofs.Records.FirstFault
import AbiLayout.Proofs.Records.Unions

/-!
# Variants that can be left out

An alternative without a name opens no scope, so a variant of such alternatives alone adds nothing to a record
but a union. Main statement: a record where the variant is replaced, in place, by the members of its
alternatives has the same offsets and is refused for the same fault, and if it is defined it has the same
fields and the same assertions.
-/

namespace AbiLayout

open Cpp

/-- A type around the members of a record, as a function of these members. -/
inductive AroundMembers : (List Member → AbiType) → Prop where
  | record (name : String) : AroundMembers (.record name)
  | atomic {around : List Member → AbiType} (h : AroundMembers around) :
    AroundMembers fun ms => .atomic (around ms)
  | pointer {around : List Member → AbiType} (h : AroundMembers around) (constant : Bool) :
    AroundMembers fun ms => .pointer (around ms) constant
  | array {around : List Member → AbiType} (h : AroundMembers around) (count : UInt64) :
    AroundMembers fun ms => .array (around ms) count
  | aliasOf {around : List Member → AbiType} (h : AroundMembers around) (name : String) :
    AroundMembers fun ms => .aliasOf name (around ms)

/-- The second list is the first with one variant, all of whose alternatives are without a name, replaced in
place by the members of these alternatives: in the list itself, in an alternative at any depth, or in a record
inside the type of a member. -/
inductive Flattens : List Member → List Member → Prop where
  | here (inners : List (List Member)) (rest : List Member) :
    Flattens (.variant (inners.map (.mk none)) :: rest) (inners.flatten ++ rest)
  | later (m : Member) {ms ms' : List Member} (h : Flattens ms ms') : Flattens (m :: ms) (m :: ms')
  | inAlternative (before after : List Alternative) (name : Option String) {ms ms' : List Member}
    (h : Flattens ms ms') (rest : List Member) :
    Flattens (.variant (before ++ .mk name ms :: after) :: rest)
      (.variant (before ++ .mk name ms' :: after) :: rest)
  | inSimple (name : String) {around : List Member → AbiType} (haround : AroundMembers around)
    {ms ms' : List Member} (h : Flattens ms ms') (rest : List Member) :
    Flattens (.simple name (around ms) :: rest) (.simple name (around ms') :: rest)
  | inRange (name : String) (constant : Bool) (baseName lengthName : String)
    {around : List Member → AbiType} (haround : AroundMembers around) {ms ms' : List Member}
    (h : Flattens ms ms') (rest : List Member) :
    Flattens (.range name (around ms) constant baseName lengthName :: rest)
      (.range name (around ms') constant baseName lengthName :: rest)

/-- The same record, but for a variant that is flattened. -/
def Record.Flattens (r r' : Record) : Prop := r.name = r'.name ∧ AbiLayout.Flattens r.members r'.members

namespace Cpp

/-! ### Records inside types -/

/-- Both types are spelled alike, on their own and in every declaration. -/
def Spelling.Alike (s : Spelling) (t t' : AbiType) : Prop :=
  s.spell t = s.spell t' ∧ ∀ d, s.spellThrough t d = s.spellThrough t' d

namespace Spelling.Alike

variable {s : Spelling} {t t' : AbiType}

theorem atomic (h : s.Alike t t') : s.Alike (.atomic t) (.atomic t') := by
  refine ⟨?_, fun d => ?_⟩
  · rw [spell, spell, h.1]
  · rw [spellThrough, spellThrough, h.1]

theorem pointer (h : s.Alike t t') (constant : Bool) :
    s.Alike (.pointer t constant) (.pointer t' constant) := by
  refine ⟨?_, fun d => ?_⟩
  · rw [spell, spell, h.2]
  · rw [spellThrough, spellThrough, h.2]

theorem array (h : s.Alike t t') (count : UInt64) : s.Alike (.array t count) (.array t' count) := by
  refine ⟨?_, fun d => ?_⟩
  · simp only [spell, h.2]
  · simp only [spellThrough, h.2]

end Spelling.Alike

/-- A record inside a type is spelled by its name alone. -/
theorem spelled_around {around : List Member → AbiType} (h : AroundMembers around) (s : Spelling)
    (ms ms' : List Member) : s.spell (around ms) = s.spell (around ms') ∧
      ∀ d, s.spellThrough (around ms) d = s.spellThrough (around ms') d := by
  induction h with
  | record name => exact ⟨rfl, fun _ => rfl⟩
  | aliasOf _ name => exact ⟨rfl, fun _ => rfl⟩
  | atomic _ ih => exact Spelling.Alike.atomic ih
  | pointer _ constant ih => exact Spelling.Alike.pointer ih constant
  | array _ count ih => exact Spelling.Alike.array ih count

/-! ### The walks over a flattened variant -/

theorem declaredNames_append (a b : List Member) :
    declaredNames (a ++ b) = declaredNames a ++ declaredNames b := by
  simp only [declaredNames_eq_flatMap, List.flatMap_append]

theorem alternativesNames_append (a b : List Alternative) :
    alternativesNames (a ++ b) = alternativesNames a ++ alternativesNames b := by
  simp only [alternativesNames_eq_flatMap, List.flatMap_append]

/-- A named alternative is declared by its name, whatever it holds. -/
theorem alternativeNames_congr (name : Option String) {ms ms' : List Member}
    (h : declaredNames ms = declaredNames ms') :
    alternativeNames (.mk name ms) = alternativeNames (.mk name ms') := by
  cases name with
  | none => exact h
  | some name => rfl

theorem alternativesNames_hoisted (inners : List (List Member)) :
    alternativesNames (inners.map (.mk none)) = declaredNames inners.flatten := by
  induction inners with
  | nil => rfl
  | cons ms rest ih =>
    rw [List.map_cons, alternativesNames, alternativeNames, ih, List.flatten_cons, declaredNames_append]

section

variable (path : DualPath) (lengthMember : Option String)

theorem membersOffsets_append (a b : List Member) : membersOffsets path lengthMember (a ++ b) =
    membersOffsets path lengthMember a ++ membersOffsets path lengthMember b := by
  induction a with
  | nil => rfl
  | cons m rest ih => rw [List.cons_append, membersOffsets, membersOffsets, ih, List.append_assoc]

theorem alternativesOffsets_append (a b : List Alternative) :
    alternativesOffsets path lengthMember (a ++ b) =
      alternativesOffsets path lengthMember a ++ alternativesOffsets path lengthMember b := by
  induction a with
  | nil => rfl
  | cons x rest ih => rw [List.cons_append, alternativesOffsets, alternativesOffsets, ih, List.append_assoc]

theorem alternativeOffsets_congr (name : Option String) {ms ms' : List Member}
    (h : ∀ path, membersOffsets path lengthMember ms = membersOffsets path lengthMember ms') :
    alternativeOffsets path lengthMember (.mk name ms) = alternativeOffsets path lengthMember (.mk name ms') := by
  cases name with
  | none => rw [alternativeOffsets, alternativeOffsets, h]
  | some name => rw [alternativeOffsets, alternativeOffsets, h]

theorem alternativesOffsets_hoisted (inners : List (List Member)) :
    alternativesOffsets path lengthMember (inners.map (.mk none)) =
      membersOffsets path lengthMember inners.flatten := by
  induction inners with
  | nil => rfl
  | cons ms rest ih =>
    rw [List.map_cons, alternativesOffsets, alternativeOffsets, ih, List.flatten_cons,
      membersOffsets_append]

end

section

variable (s : RecordSettings) (scope : String) (visible : List String)

theorem outlineMembers_append (a b : List Member) : outlineMembers s scope visible (a ++ b) =
    outlineMembers s scope visible a ++ outlineMembers s scope visible b := by
  induction a with
  | nil => rfl
  | cons m rest ih => rw [List.cons_append, outlineMembers, outlineMembers, ih, List.cons_append]

theorem outlineAlternatives_append (a b : List Alternative) :
    outlineAlternatives s scope visible (a ++ b) =
      outlineAlternatives s scope visible a ++ outlineAlternatives s scope visible b := by
  induction a with
  | nil => rfl
  | cons x rest ih => rw [List.cons_append, outlineAlternatives, outlineAlternatives, ih, List.append_assoc]

theorem outlineAlternatives_hoisted (inners : List (List Member)) :
    outlineAlternatives s scope visible (inners.map (.mk none)) =
      outlineMembers s scope visible inners.flatten := by
  induction inners with
  | nil => rfl
  | cons ms rest ih =>
    rw [List.map_cons, outlineAlternatives, outlineAlternative, ih, List.flatten_cons,
      outlineMembers_append]

end

end Cpp

namespace Flattens

variable {ms ms' : List Member}

theorem declaredNames_eq (h : Flattens ms ms') : declaredNames ms = declaredNames ms' := by
  induction h with
  | here inners rest => rw [declaredNames, memberNames, alternativesNames_hoisted, declaredNames_append]
  | later m _ ih => rw [declaredNames, declaredNames, ih]
  | inAlternative before after name _ rest ih =>
    simp only [declaredNames, memberNames, alternativesNames_append, alternativesNames,
      alternativeNames_congr name ih]
  | inSimple name _ _ rest => rfl
  | inRange name constant baseName lengthName _ _ rest => rfl

theorem membersOffsets_eq (h : Flattens ms ms') (path : DualPath) (lengthMember : Option String) :
    membersOffsets path lengthMember ms = membersOffsets path lengthMember ms' := by
  induction h generalizing path with
  | here inners rest =>
    rw [membersOffsets, memberOffsets, alternativesOffsets_hoisted, membersOffsets_append]
  | later m _ ih => rw [membersOffsets, membersOffsets, ih]
  | inAlternative before after name _ rest ih =>
    simp only [membersOffsets, memberOffsets, alternativesOffsets_append, alternativesOffsets,
      alternativeOffsets_congr path lengthMember name ih]
  | inSimple name _ _ rest => rfl
  | inRange name constant baseName lengthName _ _ rest => rfl

theorem dissolves (h : Flattens ms ms') (s : RecordSettings) (scope : String) (visible : List String) :
    Outline.Dissolves (outlineMembers s scope visible ms) (outlineMembers s scope visible ms') := by
  induction h generalizing scope visible with
  | here inners rest =>
    rw [outlineMembers, outlineMember, outlineAlternatives_hoisted, outlineMembers_append]
    exact .here _ _
  | later m _ ih =>
    rw [outlineMembers, outlineMembers]
    exact .later _ (ih scope visible)
  | @inAlternative before after name ms ms' h rest ih =>
    have halternative : Outline.Dissolves (outlineAlternative s scope visible (.mk name ms))
        (outlineAlternative s scope visible (.mk name ms')) := by
      cases name with
      | none =>
        rw [outlineAlternative, outlineAlternative]
        exact ih scope visible
      | some name =>
        -- the alternative is a scope, which declares the same names
        rw [outlineAlternative, outlineAlternative, scopeFault, scopeFault, h.declaredNames_eq]
        exact .inNested _ _ (ih _ _) []
    simp only [outlineMembers, outlineMember, outlineAlternatives_append, outlineAlternatives]
    exact .inUnion ((halternative.append_right _).append_left _) _
  | inSimple name haround _ rest =>
    rw [outlineMembers, outlineMember, Spelling.declaration, (spelled_around haround _ _ _).2]
    exact .same _
  | inRange name constant baseName lengthName haround _ rest =>
    rw [outlineMembers, outlineMember, (spelled_around haround _ _ _).1]
    exact .same _

end Flattens

/-! ### Records -/

namespace Cpp

/-- A record is refused with its first fault, or else its offsets are counted. -/
theorem defineRecord_result (s : RecordSettings) (lead : String) (r : Record) :
    (defineRecord s lead r).result =
      match recordFault? r with
      | some e => .error e
      | none => .ok (sharedOffsets r.members s.rangeLengthMember).length := by
  have hfault := defineRecord_fault? s lead r
  cases hr : recordFault? r with
  | some e =>
    rw [hr, Emission.fault?_eq_some_iff] at hfault
    exact hfault
  | none =>
    rw [hr, Emission.fault?_eq_none_iff] at hfault
    obtain ⟨n, hn⟩ := hfault
    obtain ⟨hscope, body, hbody⟩ := exists_body_of_defineRecord hn
    rw [defineRecord_of_body s lead r body hscope hbody]

theorem recordFault?_of_flattens (s : RecordSettings) {r r' : Record} (h : r.Flattens r') :
    recordFault? r = recordFault? r' := by
  obtain ⟨hname, hmembers⟩ := h
  have hbody : membersFault? (mangle r.name) r.members = membersFault? (mangle r.name) r'.members := by
    rw [← faultAll?_outlineMembers s _ [], ← faultAll?_outlineMembers s _ [],
      (hmembers.dissolves s _ _).faultAll?_eq]
  rw [recordFault?, recordFault?, scopeFault, scopeFault, hmembers.declaredNames_eq, hbody, hname]

/-- A record in which a variant without named alternatives is replaced by what its alternatives hold has the
same offsets, and either both records are refused with the same fault or both are defined with the same count.
If they are, the definitions differ in their bodies alone: these have the same fields, under the same paths
and with the same declarations, and the lines of one are those of the other without the two lines of a
union and without the indentation between them. -/
theorem defineRecord_of_flattens (s : RecordSettings) (lead : String) (r r' : Record)
    (h : r.Flattens r') :
    (∀ lengthMember, sharedOffsets r.members lengthMember = sharedOffsets r'.members lengthMember) ∧
    (defineRecord s lead r).result = (defineRecord s lead r').result ∧
    ∀ n, (defineRecord s lead r).result = .ok n → ∃ body body',
      (defineRecord s lead r).lines = (Record.definition s lead r body).lines ∧
      (defineRecord s lead r').lines =
        { Record.definition s lead r body with body := body' : RecordDefinition }.lines ∧
      Body.fieldsAll body = Body.fieldsAll body' ∧
      Body.pathsAll "" body = Body.pathsAll "" body' ∧
      UnionDissolved (Body.linesAll 1 body) (Body.linesAll 1 body') := by
  obtain ⟨hname, hmembers⟩ := h
  have hoffsets : ∀ lengthMember,
      sharedOffsets r.members lengthMember = sharedOffsets r'.members lengthMember :=
    fun lengthMember => hmembers.membersOffsets_eq .root lengthMember
  have hfault := recordFault?_of_flattens s ⟨hname, hmembers⟩
  refine ⟨hoffsets, ?_, ?_⟩
  · rw [defineRecord_result, defineRecord_result, hfault, hoffsets]
  · intro n hn
    obtain ⟨hscope, body, hbody⟩ := exists_body_of_defineRecord hn
    have hscope' : scopeFault (mangle r'.name) r'.members = none := by
      rw [scopeFault, ← hmembers.declaredNames_eq, ← hname]
      exact hscope
    -- the outline of the second record is that of the first with a union dissolved
    have hdissolved : Outline.Dissolves (outlineRecord s r) (outlineRecord s r') := by
      rw [outlineRecord, outlineRecord, ← hname, ← hmembers.declaredNames_eq]
      exact hmembers.dissolves s _ _
    obtain ⟨body', hbody', hfields, hlines⟩ := hdissolved.exists_body hbody
    have hpaths : Body.pathsAll "" body = Body.pathsAll "" body' := by
      rw [← Body.pathsAll_outlineAll, ← Body.pathsAll_outlineAll, hbody, hbody']
      refine (pathsAll_outlineMembers s none _ _ .root r.members).trans ?_
      rw [hmembers.membersOffsets_eq]
      exact (pathsAll_outlineMembers s none _ _ .root r'.members).symm
    refine ⟨body, body', ?_, ?_, hfields, hpaths, hlines 1⟩
    · rw [defineRecord_of_body s lead r body hscope hbody]
    · rw [defineRecord_of_body s lead r' body' hscope' hbody', Record.definition, Record.definition, hname,
        hoffsets]

/-- Inside a named alternative a variant holds two alternatives without names, and the member `fd` of one of
them hides the type of that name. -/
def layered : Record where
  name := "packet"
  members :=
    [.simple "kind" (.int .uint8),
      .variant
        [.mk (some "body")
          [.variant
            [.mk none [.simple "fd" (.userDefined "fd")],
              .mk none [.range "data" (.userDefined "fd") true "data" "data_len"]],
            .simple "peer" (.pointer (.userDefined "fd") false)]]]

def flattened : Record where
  name := "packet"
  members :=
    [.simple "kind" (.int .uint8),
      .variant
        [.mk (some "body")
          [.simple "fd" (.userDefined "fd"), .range "data" (.userDefined "fd") true "data" "data_len",
            .simple "peer" (.pointer (.userDefined "fd") false)]]]

theorem layered_flattens : layered.Flattens flattened :=
  ⟨rfl, .later _ (.inAlternative [] [] _ (.here [[_], [_]] _) _)⟩

theorem defineRecord_of_flattens_layered :
    layered.Flattens flattened ∧
    (defineRecord ⟨"cloudabi", "mstd::range", some "_size"⟩ "cloudabi_" layered).result = .ok 5 ∧
    (defineRecord ⟨"cloudabi", "mstd::range", some "_size"⟩ "cloudabi_" flattened).result = .ok 5 ∧
    (defineRecord ⟨"cloudabi", "mstd::range", some "_size"⟩ "cloudabi_" layered).lines.take 11 =
      ["struct packet \x7b", "  std::uint8_t kind;", "  union \x7b", "    struct \x7b",
        "      union \x7b", "        cloudabi::fd fd;", "        mstd::range<cloudabi::fd const> data;",
        "      \x7d;", "      cloudabi::fd *peer;", "    \x7d body;", "  \x7d;"] ∧
    ∃ body body',
      (defineRecord ⟨"cloudabi", "mstd::range", some "_size"⟩ "cloudabi_" layered).lines =
        (Record.definition ⟨"cloudabi", "mstd::range", some "_size"⟩ "cloudabi_" layered body).lines ∧
      (defineRecord ⟨"cloudabi", "mstd::range", some "_size"⟩ "cloudabi_" flattened).lines =
        { Record.definition ⟨"cloudabi", "mstd::range", some "_size"⟩ "cloudabi_" layered body with
          body := body' : RecordDefinition }.lines ∧
      Body.fieldsAll body = Body.fieldsAll body' ∧
      Body.pathsAll "" body = Body.pathsAll "" body' ∧
      UnionDissolved (Body.linesAll 1 body) (Body.linesAll 1 body') := by
  have hlayered : (defineRecord ⟨"cloudabi", "mstd::range", some "_size"⟩ "cloudabi_" layered).result =
      .ok 5 := by rfl
  obtain ⟨_, hresult, hdefined⟩ :=
    defineRecord_of_flattens ⟨"cloudabi", "mstd::range", some "_size"⟩ "cloudabi_" _ _ layered_flattens
  exact ⟨layered_flattens, hlayered, hresult.symm.trans hlayered, by rfl, hdefined 5 hlayered⟩

end Cpp

end AbiLayout
