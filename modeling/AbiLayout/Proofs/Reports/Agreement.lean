import AbiLayout.Proofs.Enumerations.Acceptance
import AbiLayout.Proofs.Reports.Restriction

/-!
# Reports and headers agree

The report on a model and its two headers come from three walks over the types. Main statement: the
analysis of a model always ends well, and where the headers are written it tells, in the order of their
lines, the records they define, the offsets they assert and the enumerations they declare.
-/

namespace AbiLayout

open Cpp

/-! ### Enumerations -/

/-- What the report says of an enumeration is what is declared. A flags type may declare one enumerator
more, in front, if none of its values goes by that name. -/
structure EnumEntry.DeclaredAs (entry : EnumEntry) (e : Enumeration) : Prop where
  name : e.name = entry.generated
  underlying : e.underlying = entry.canonical
  flags : e.flags = entry.flags
  enumerators : e.enumerators =
    (if entry.flags && entry.values.all (fun v => v.generated != noneName) then [⟨noneName, "0"⟩]
      else []) ++
    entry.values.map fun v => ⟨v.generated, v.canonical⟩

namespace Cpp

theorem declaredAs_of_enumeration {lead : String} {body : IntLike} {e : Enumeration}
    (h : enumeration lead body = .ok e) : (enumEntry lead body).DeclaredAs e := by
  unfold enumeration at h
  split at h
  · cases h
  · obtain ⟨b, hb, h⟩ := (bind_eq_ok_iff _ _ _).1 h
    have hnone := needsNone_eq_ok hb
    rw [← body.all_ne_noneName] at hnone
    cases h
    refine ⟨rfl, rfl, rfl, ?_⟩
    simp only [enumEntry, List.all_map, List.map_map, hnone]
    rfl

def LightDeclaration.enumeration? : LightDeclaration → Option Enumeration
  | enumeration _ e => some e
  | aliasOf _ _ | announcement _ => none

theorem declaredAs_of_lightDeclaration {lead : String} {t : AbiType} {d : Option LightDeclaration}
    (h : lightDeclaration lead t = .ok d) :
    List.Forall₂ EnumEntry.DeclaredAs (t.intLike?.toList.map (enumEntry lead))
      (d.toList.filterMap LightDeclaration.enumeration?) := by
  cases t with
  | intLike body =>
    obtain ⟨e, he, hd⟩ := (bind_eq_ok_iff _ _ _).1 h
    cases hd
    exact .cons (declaredAs_of_enumeration he) .nil
  | _ =>
    cases h
    exact .nil

theorem declaredAs_of_lightDeclarations {lead : String} {types : List AbiType}
    {ds : List LightDeclaration} (h : lightDeclarations lead types = .ok ds) :
    List.Forall₂ EnumEntry.DeclaredAs ((types.filterMap AbiType.intLike?).map (enumEntry lead))
      (ds.filterMap LightDeclaration.enumeration?) := by
  induction types generalizing ds with
  | nil =>
    cases h
    exact .nil
  | cons t rest ih =>
    obtain ⟨d, hd, h⟩ := (bind_eq_ok_iff _ _ _).1 h
    obtain ⟨others, hothers, h⟩ := (bind_eq_ok_iff _ _ _).1 h
    cases h
    have hsplit : (t :: rest).filterMap AbiType.intLike? =
        t.intLike?.toList ++ rest.filterMap AbiType.intLike? := by
      rw [List.filterMap_cons]
      cases t.intLike? <;> rfl
    rw [hsplit, List.map_append, List.filterMap_append]
    exact List.rel_append (declaredAs_of_lightDeclaration hd) (ih hothers)

/-! ### Records -/

section

variable {s : RecordSettings} {lead : String}

/-- The offsets that are asserted behind a record are those that are reported. -/
theorem defineRecord_filter_offsetMark {r : Record} {n : Nat}
    (h : (defineRecord s lead r).result = .ok n) :
    (defineRecord s lead r).lines.filter (beginsWith offsetMark) =
        (recordEntry lead s.rangeLengthMember r).offsets.map
          (offsetAssertion (mangle r.name) ((canonical lead).named r.name)) ∧
      n = (recordEntry lead s.rangeLengthMember r).offsets.length := by
  obtain ⟨hscope, body, hbody⟩ := exists_body_of_defineRecord h
  rw [defineRecord_of_body s lead r body hscope hbody] at h ⊢
  exact ⟨(Record.definition s lead r body).filter_offsetMark, (Except.ok.inj h).symm⟩

theorem defineRecords_filter_offsetMark {records : List Record} {counts : List Nat}
    (h : List.Forall₂ (fun r n => (defineRecord s lead r).result = .ok n) records counts) :
    (records.flatMap fun r => (defineRecord s lead r).lines).filter (beginsWith offsetMark) =
        (records.map (recordEntry lead s.rangeLengthMember)).flatMap fun e =>
          e.offsets.map (offsetAssertion e.generated e.canonical) := by
  induction h with
  | nil => rfl
  | cons hr _ ih =>
    rw [List.flatMap_cons, List.filter_append, (defineRecord_filter_offsetMark hr).1, ih]
    rfl

theorem offsetCount_eq_sum {records : List Record} {counts : List Nat}
    (h : List.Forall₂ (fun r n => (defineRecord s lead r).result = .ok n) records counts) :
    (records.map (recordEntry lead s.rangeLengthMember)).foldr (fun e n => e.offsets.length + n) 0 =
      counts.sum := by
  induction h with
  | nil => rfl
  | cons hr _ ih =>
    rw [List.map_cons, List.foldr_cons, ih, ← (defineRecord_filter_offsetMark hr).2, List.sum_cons]

end

/-- The lines of the records of a model, between the head and the foot of their header. -/
def recordLines (s : Settings) (m : Model) : List String :=
  (includedRecords s m).flatMap fun r => (defineRecord (recordSettings s) s.canonicalLead r).lines

end Cpp

/-! ### Agreement -/

/-- A report tells what stands in the headers of a model. -/
structure Report.ShownBy (s : Settings) (m : Model) (r : Report) (h : Headers) : Prop where
  recordText : h.records.contents = headerText m.name s.space s.recordsFrame (recordLines s m)
  recordNames : r.records.map RecordEntry.name = (includedRecords s m).map Record.name
  recordsGenerated : ∀ e ∈ r.records, e.generated = mangle e.name
  opened : (recordLines s m).filter (beginsWith recordMark) =
    r.records.map fun e => "struct " ++ e.generated ++ " \x7b"
  asserted : (recordLines s m).filter (beginsWith offsetMark) =
    r.records.flatMap fun e => e.offsets.map (offsetAssertion e.generated e.canonical)
  enumNames : r.enums.map EnumEntry.name = (includedIntLikes s m).map IntLike.name
  enumsGenerated : ∀ e ∈ r.enums, e.generated = mangle e.name
  declared : ∃ ds, lightDeclarations s.canonicalLead (includedTypes s m) = .ok ds ∧
    h.types.contents =
      headerText m.name s.space s.typesFrame (ds.flatMap LightDeclaration.lines) ∧
    List.Forall₂ EnumEntry.DeclaredAs r.enums (ds.filterMap LightDeclaration.enumeration?)
  counted : r.offsetCount = h.offsetCount

theorem Report.shownBy_of_renderHeaders {s : Settings} {m : Model} {h : Headers}
    (hok : renderHeaders s m = .ok h) : (Report.ofModel s m none).ShownBy s m h := by
  obtain ⟨_, hrecords, _, hrecordText⟩ := steps_of_renderHeaders hok
  obtain ⟨ds, _, hds, _, htypesText, _⟩ := renderHeaders_eq_ok hok
  obtain ⟨counts, hcounts, hsum, _⟩ := defineRecords_of_ok hrecords
  exact
    { recordText := hrecordText
      recordNames := by
        rw [records_ofModel, List.map_map]
        rfl
      recordsGenerated := by
        intro e he
        rw [records_ofModel] at he
        obtain ⟨r, _, rfl⟩ := List.mem_map.1 he
        rfl
      opened := by
        rw [records_ofModel, List.map_map]
        exact defineRecords_filter_recordMark hcounts
      asserted := by
        rw [records_ofModel]
        exact defineRecords_filter_offsetMark hcounts
      enumNames := by
        rw [enums_ofModel, List.map_map]
        rfl
      enumsGenerated := by
        intro e he
        rw [enums_ofModel] at he
        obtain ⟨body, _, rfl⟩ := List.mem_map.1 he
        rfl
      declared := by
        refine ⟨ds, hds, htypesText, ?_⟩
        rw [enums_ofModel]
        exact declaredAs_of_lightDeclarations hds
      counted := by
        rw [offsetCount, records_ofModel, hsum]
        exact offsetCount_eq_sum hcounts }

/-- The analysis of a model always ends with a report. Headers that are written show what is reported:
the same records and the same enumerations in the same order, and as many offsets. The report on one name
is that part of the whole one. -/
theorem analyze_agrees_with_headers (s : Settings) (m : Model) :
    ∃ r, analyze s m none = .ok r ∧ (∀ h, renderHeaders s m = .ok h → r.ShownBy s m h) ∧
      ∀ name, analyze s m (some name) = .ok (r.restricted name) := by
  refine ⟨Report.ofModel s m none, analyze_eq s m none, ?_, ?_⟩
  · intro h hok
    exact Report.shownBy_of_renderHeaders hok
  · intro name
    rw [analyze_eq, Report.ofModel_some]

/-- A flags type, an excluded record, and a record with a view and a nested field. -/
def messageTypes : List AbiType :=
  [.intLike ⟨"msgflags", .uint16, true, none, [⟨"peek", 1⟩, ⟨"private", 16⟩]⟩,
    .record "fd" [.simple "raw" (.int .uint32)],
    .aliasOf "filesize" (.int .uint64),
    .record "message"
      [.simple "flags" (.userDefined "msgflags"),
        .variant
          [.mk none [.range "data" .void true "data" "data_len"],
            .mk (some "private") [.simple "size" (.userDefined "filesize")]]]]

def messageModel : Model := .ofTypes "messages" messageTypes rfl

/-- Settings under which the lengths of views are checked too. -/
def lengthSettings : Settings := { Settings.standard with rangeLengthMember := some "_size" }

theorem analyze_agrees_with_headers_messages :
    ∃ r h, analyze lengthSettings messageModel none = .ok r ∧
      renderHeaders lengthSettings messageModel = .ok h ∧ r.ShownBy lengthSettings messageModel h ∧
      r.records.map RecordEntry.name = ["message"] ∧ r.enums.map EnumEntry.name = ["msgflags"] ∧
      r.offsetCount = 4 ∧
      analyze lengthSettings messageModel (some "message") = .ok (r.restricted "message") := by
  obtain ⟨r, hr, hshown, honly⟩ := analyze_agrees_with_headers lengthSettings messageModel
  obtain ⟨h, hok, hcount⟩ :
      ∃ h, renderHeaders lengthSettings messageModel = .ok h ∧ h.offsetCount = 4 := ⟨_, rfl, rfl⟩
  have hall := hshown h hok
  have hoffsets : r.offsetCount = 4 := by rw [hall.counted, hcount]
  exact ⟨r, h, hr, hok, hall, hall.recordNames, hall.enumNames, hoffsets, honly "message"⟩

end AbiLayout
