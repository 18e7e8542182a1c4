import AbiLayout.Proofs.Headers.Lines
import AbiLayout.Proofs.Sequence
import Mathlib.Algebra.GroupWithZero.Nat

/-!
# How headers are put together

Each header is one step per type over the included types, between its head and its foot, and the second
header is begun only when the first is finished. Main statement: both headers are written exactly if
each enumeration and each record among the included types can be, they are then the texts of the single
pieces one after the other, and otherwise the fault is that of the first enumeration that has one, or
else that of the first record.
-/

namespace AbiLayout.Cpp

open Emission (each)

/-! ### One step per type -/

theorem declareTypes_eq_each (lead : String) (types : List AbiType) :
    declareTypes lead types = (do
      let _ ← each (declareType lead) types
      return ()) := by
  induction types with
  | nil => rfl
  | cons t rest ih =>
    rw [declareTypes, each, bind_assoc, ih]
    simp only [bind_assoc, pure_bind]

theorem defineRecords_eq_each (s : RecordSettings) (lead : String) (records : List Record) :
    defineRecords s lead records = (do
      let counts ← each (defineRecord s lead) records
      return counts.sum) := by
  induction records with
  | nil => rfl
  | cons r rest ih =>
    rw [defineRecords, each, bind_assoc, ih]
    simp only [bind_assoc, pure_bind, List.sum_cons]

theorem declareTypes_fault? (lead : String) (types : List AbiType) :
    (declareTypes lead types).fault? = types.findSome? fun t => (declareType lead t).fault? := by
  rw [declareTypes_eq_each, ← Emission.fault?_each]
  exact Emission.fault?_bind_of_finishes _ fun _ => rfl

theorem defineRecords_fault? (s : RecordSettings) (lead : String) (records : List Record) :
    (defineRecords s lead records).fault? =
      records.findSome? fun r => (defineRecord s lead r).fault? := by
  rw [defineRecords_eq_each, ← Emission.fault?_each]
  exact Emission.fault?_bind_of_finishes _ fun _ => rfl

theorem declareTypes_of_ok {lead : String} {types : List AbiType}
    (h : (declareTypes lead types).result = .ok ()) :
    declareTypes lead types = ⟨types.flatMap fun t => (declareType lead t).lines, .ok ()⟩ := by
  rw [declareTypes_eq_each] at h ⊢
  obtain ⟨us, hus, _⟩ := (Emission.result_bind_eq_ok_iff _ _ _).1 h
  rw [Emission.each_of_forall₂ _ (Emission.forall₂_of_each _ hus), Emission.mk_ok_bind]
  simp [pure, Emission.value]

/-- The whole walk has no fault, so no single step has one. -/
theorem each_of_declareTypes {lead : String} {types : List AbiType}
    (h : (declareTypes lead types).result = .ok ()) :
    ∀ t ∈ types, (declareType lead t).result = .ok () := by
  have hnone : (declareTypes lead types).fault? = none := (Emission.fault?_eq_none_iff _).2 ⟨(), h⟩
  rw [declareTypes_fault?, List.findSome?_eq_none_iff] at hnone
  intro t ht
  obtain ⟨_, hu⟩ := (Emission.fault?_eq_none_iff _).1 (hnone t ht)
  exact hu

theorem defineRecords_of_ok {s : RecordSettings} {lead : String} {records : List Record} {n : Nat}
    (h : (defineRecords s lead records).result = .ok n) :
    ∃ counts, List.Forall₂ (fun r k => (defineRecord s lead r).result = .ok k) records counts ∧
      n = counts.sum ∧
      defineRecords s lead records =
        ⟨records.flatMap fun r => (defineRecord s lead r).lines, .ok n⟩ := by
  rw [defineRecords_eq_each] at h ⊢
  obtain ⟨counts, hcounts, hsum⟩ := (Emission.result_bind_eq_ok_iff _ _ _).1 h
  have hall := Emission.forall₂_of_each _ hcounts
  refine ⟨counts, hall, (Except.ok.inj hsum).symm, ?_⟩
  rw [Emission.each_of_forall₂ _ hall, Emission.mk_ok_bind]
  cases hsum
  simp [pure, Emission.value]

/-! ### Enumerations among the types -/

def includedIntLikes (s : Settings) (m : Model) : List IntLike :=
  (includedTypes s m).filterMap AbiType.intLike?

/-- Only enumerations can have no light declaration. -/
theorem declareType_fault? (lead : String) (t : AbiType) :
    (declareType lead t).fault? =
      t.intLike?.bind fun e => (declareType lead (.intLike e)).fault? := by
  cases t <;> rfl

theorem findSome?_filterMap {α β γ : Type} (f : α → Option β) (g : β → Option γ) (l : List α) :
    (l.filterMap f).findSome? g = l.findSome? fun a => (f a).bind g := by
  induction l with
  | nil => rfl
  | cons a rest ih =>
    rw [List.findSome?_cons, ← ih]
    cases hf : f a with
    | none => rw [List.filterMap_cons_none hf, Option.bind_none]
    | some b => rw [List.filterMap_cons_some hf, List.findSome?_cons, Option.bind_some]

theorem declareTypes_fault?_eq_intLikes (lead : String) (types : List AbiType) :
    (declareTypes lead types).fault? =
      (types.filterMap AbiType.intLike?).findSome? fun e =>
        (declareType lead (.intLike e)).fault? := by
  rw [declareTypes_fault?, findSome?_filterMap]
  congr 1
  funext t
  exact declareType_fault? lead t

/-! ### Both headers -/

section

variable {s : Settings} {m : Model}

theorem typesHeader_of_ok (h : (declareTypes s.canonicalLead (includedTypes s m)).result = .ok ()) :
    typesHeader s m = ⟨headerHead m.name s.space s.typesFrame ++
      ((includedTypes s m).flatMap fun t => (declareType s.canonicalLead t).lines) ++
      headerFoot s.typesFrame, .ok ()⟩ := by
  rw [typesHeader, declareTypes_of_ok h]
  simp only [Emission.block, Emission.mk_ok_bind, List.append_assoc]

theorem recordsHeader_of_ok {n : Nat}
    (h : (defineRecords (recordSettings s) s.canonicalLead (includedRecords s m)).result = .ok n) :
    recordsHeader s m = ⟨headerHead m.name s.space s.recordsFrame ++
      ((includedRecords s m).flatMap fun r =>
        (defineRecord (recordSettings s) s.canonicalLead r).lines) ++
      headerFoot s.recordsFrame, .ok n⟩ := by
  obtain ⟨_, _, _, hlines⟩ := defineRecords_of_ok h
  rw [recordsHeader, hlines]
  simp [Emission.block, Emission.mk_ok_bind, pure, Emission.value]

theorem renderHeaders_of_ok {n : Nat}
    (ht : (declareTypes s.canonicalLead (includedTypes s m)).result = .ok ())
    (hr : (defineRecords (recordSettings s) s.canonicalLead (includedRecords s m)).result = .ok n) :
    renderHeaders s m = .ok
      { types := ⟨s.typesFrame.fileName, headerText m.name s.space s.typesFrame
          ((includedTypes s m).flatMap fun t => (declareType s.canonicalLead t).lines)⟩
        records := ⟨s.recordsFrame.fileName, headerText m.name s.space s.recordsFrame
          ((includedRecords s m).flatMap fun r =>
            (defineRecord (recordSettings s) s.canonicalLead r).lines)⟩
        offsetCount := n } := by
  rw [renderHeaders, renderTypes, renderRecords, typesHeader_of_ok ht, recordsHeader_of_ok hr]
  rfl

theorem typesHeader_fault? (s : Settings) (m : Model) :
    (typesHeader s m).fault? = (declareTypes s.canonicalLead (includedTypes s m)).fault? := by
  rw [typesHeader, Emission.fault?_bind_of_ok (a := ()) rfl]
  exact Emission.fault?_bind_of_finishes _ fun _ => rfl

theorem recordsHeader_fault? (s : Settings) (m : Model) :
    (recordsHeader s m).fault? =
      (defineRecords (recordSettings s) s.canonicalLead (includedRecords s m)).fault? := by
  rw [recordsHeader, Emission.fault?_bind_of_ok (a := ()) rfl]
  exact Emission.fault?_bind_of_finishes _ fun _ => rfl

/-- The first header that has a fault decides. -/
theorem renderHeaders_eq_error_iff (s : Settings) (m : Model) (e : RenderError) :
    renderHeaders s m = .error e ↔
      ((typesHeader s m).fault?.or (recordsHeader s m).fault?) = some e := by
  unfold renderHeaders renderTypes renderRecords Emission.fault?
  cases (typesHeader s m).result with
  | error f => simp [bind, Except.bind, Except.map]
  | ok u =>
    cases (recordsHeader s m).result with
    | error f => simp [bind, Except.bind, Except.map]
    | ok n => simp [bind, Except.bind, Except.map, pure, Except.pure]

end

/-! ### Records in both headers -/

theorem announced_of_lightDeclaration {lead : String} {t : AbiType} {d : Option LightDeclaration}
    (h : lightDeclaration lead t = .ok d) :
    d.bind LightDeclaration.announced? = t.record?.map fun r => mangle r.name := by
  cases t with
  | intLike body =>
    obtain ⟨e, _, hd⟩ := (bind_eq_ok_iff _ _ _).1 h
    cases hd
    rfl
  | _ =>
    cases h
    rfl

theorem declareType_filter_recordMark {lead : String} {t : AbiType}
    (h : (declareType lead t).result = .ok ()) :
    (declareType lead t).lines.filter (beginsWith recordMark) =
      t.record?.toList.map fun r => "struct " ++ mangle r.name ++ ";" := by
  rw [declareType_eq] at h ⊢
  obtain ⟨d, hd, _⟩ := (Emission.result_bind_eq_ok_iff _ _ _).1 h
  rw [Emission.lift_result] at hd
  have hname := announced_of_lightDeclaration hd
  rw [hd, Emission.lift, Emission.mk_ok_bind]
  cases d with
  | none =>
    cases hr : t.record? with
    | none => rfl
    | some r =>
      rw [hr] at hname
      cases hname
  | some light =>
    have hlight := light.filter_recordMark
    rw [Option.bind_some] at hname
    rw [hname] at hlight
    simp only [Emission.block, Option.toList_some, List.flatMap_cons, List.flatMap_nil, List.append_nil,
      List.nil_append, hlight]
    cases t.record? <;> rfl

theorem declareTypes_filter_recordMark {lead : String} {types : List AbiType}
    (h : ∀ t ∈ types, (declareType lead t).result = .ok ()) :
    (types.flatMap fun t => (declareType lead t).lines).filter (beginsWith recordMark) =
      (types.filterMap AbiType.record?).map fun r => "struct " ++ mangle r.name ++ ";" := by
  induction types with
  | nil => rfl
  | cons t rest ih =>
    have ht := declareType_filter_recordMark (h t (List.mem_cons_self ..))
    have hrest := ih fun u hu => h u (List.mem_cons_of_mem _ hu)
    rw [List.flatMap_cons, List.filter_append, ht, hrest, List.filterMap_cons]
    cases t.record? <;> rfl

theorem defineRecords_filter_recordMark {s : RecordSettings} {lead : String} {records : List Record}
    {counts : List Nat}
    (h : List.Forall₂ (fun r k => (defineRecord s lead r).result = .ok k) records counts) :
    (records.flatMap fun r => (defineRecord s lead r).lines).filter (beginsWith recordMark) =
      records.map fun r => "struct " ++ mangle r.name ++ " \x7b" := by
  induction h with
  | nil => rfl
  | @cons r k rest counts hr _ ih =>
    obtain ⟨hscope, body, hbody⟩ := exists_body_of_defineRecord hr
    have hone := (Record.definition s lead r body).filter_recordMark
    rw [List.flatMap_cons, List.filter_append, defineRecord_of_body s lead r body hscope hbody, hone, ih]
    rfl

/-! ### The text of a header -/

theorem unlines_flatMap {α : Type} (f : α → List String) (l : List α) :
    unlines (l.flatMap f) = String.join (l.map fun a => unlines (f a)) := by
  induction l with
  | nil => rfl
  | cons a rest ih => rw [List.flatMap_cons, unlines_append, ih, List.map_cons, String.join_cons]

theorem headerText_flatMap {α β : Type} (abi space : String) (a : HeaderFrame) (piece : α → Emission β)
    (l : List α) :
    headerText abi space a (l.flatMap fun x => (piece x).lines) =
      unlines (headerHead abi space a) ++ String.join (l.map fun x => (piece x).text) ++
        unlines (headerFoot a) := by
  rw [headerText, unlines_append, unlines_append, unlines_flatMap]
  rfl

/-! ### Assembly -/

/-- The first fault of an included enumeration, or else of an included record. -/
def firstFault (s : Settings) (m : Model) : Option RenderError :=
  ((includedIntLikes s m).findSome? fun e => (declareType s.canonicalLead (.intLike e)).fault?).or
    ((includedRecords s m).findSome? fun r =>
      (defineRecord (recordSettings s) s.canonicalLead r).fault?)

theorem firstFault_eq (s : Settings) (m : Model) :
    firstFault s m = (typesHeader s m).fault?.or (recordsHeader s m).fault? := by
  rw [typesHeader_fault?, recordsHeader_fault?, declareTypes_fault?_eq_intLikes, defineRecords_fault?]
  rfl

theorem renderHeaders_eq_error_iff_first (s : Settings) (m : Model) (e : RenderError) :
    renderHeaders s m = .error e ↔ firstFault s m = some e := by
  rw [renderHeaders_eq_error_iff, firstFault_eq]

theorem firstFault_eq_none_iff (s : Settings) (m : Model) :
    firstFault s m = none ↔
      (∀ e ∈ includedIntLikes s m, ∃ u, (declareType s.canonicalLead (.intLike e)).result = .ok u) ∧
      ∀ r ∈ includedRecords s m,
        ∃ n, (defineRecord (recordSettings s) s.canonicalLead r).result = .ok n := by
  simp only [firstFault, Option.or_eq_none_iff, List.findSome?_eq_none_iff,
    Emission.fault?_eq_none_iff]

theorem renderHeaders_finishes_iff (s : Settings) (m : Model) :
    (∃ h, renderHeaders s m = .ok h) ↔ firstFault s m = none := by
  have hfirst := renderHeaders_eq_error_iff_first s m
  cases hr : renderHeaders s m with
  | ok h =>
    -- a fault would have ended the run
    have hnone : ∀ e, firstFault s m ≠ some e := by
      intro e he
      have herror := (hfirst e).2 he
      rw [hr] at herror
      cases herror
    exact ⟨fun _ => Option.eq_none_iff_forall_ne_some.2 hnone, fun _ => ⟨h, rfl⟩⟩
  | error e =>
    rw [(hfirst e).1 hr]
    constructor
    · rintro ⟨h, hok⟩
      cases hok
    · intro h
      cases h

/-- Headers that are written hold the lines of their types, and every type has been declared and every
record defined. -/
theorem steps_of_renderHeaders {s : Settings} {m : Model} {h : Headers}
    (hok : renderHeaders s m = .ok h) :
    (declareTypes s.canonicalLead (includedTypes s m)).result = .ok () ∧
      (defineRecords (recordSettings s) s.canonicalLead (includedRecords s m)).result =
        .ok h.offsetCount ∧
      h.types.contents = headerText m.name s.space s.typesFrame
        ((includedTypes s m).flatMap fun t => (declareType s.canonicalLead t).lines) ∧
      h.records.contents = headerText m.name s.space s.recordsFrame
        ((includedRecords s m).flatMap fun r =>
          (defineRecord (recordSettings s) s.canonicalLead r).lines) := by
  have hnone := (renderHeaders_finishes_iff s m).1 ⟨h, hok⟩
  rw [firstFault_eq, typesHeader_fault?, recordsHeader_fault?, Option.or_eq_none_iff,
    Emission.fault?_eq_none_iff, Emission.fault?_eq_none_iff] at hnone
  obtain ⟨⟨u, hu⟩, n, hn⟩ := hnone
  have hheaders := Except.ok.inj (hok.symm.trans (renderHeaders_of_ok hu hn))
  refine ⟨hu, ?_, ?_, ?_⟩
  · rw [hn, hheaders]
  · rw [hheaders]
  · rw [hheaders]

/-- Headers that are written are the light declarations of the included types and the definitions of
the included records, each between its head and its foot. -/
theorem renderHeaders_eq_ok {s : Settings} {m : Model} {h : Headers}
    (hok : renderHeaders s m = .ok h) :
    ∃ (ds : List LightDeclaration) (rs : List RecordDefinition),
      lightDeclarations s.canonicalLead (includedTypes s m) = .ok ds ∧
      List.Forall₂ (DefinedAs (recordSettings s) s.canonicalLead) (includedRecords s m) rs ∧
      h.types.contents =
        headerText m.name s.space s.typesFrame (ds.flatMap LightDeclaration.lines) ∧
      h.records.contents =
        headerText m.name s.space s.recordsFrame (rs.flatMap RecordDefinition.lines) := by
  obtain ⟨htypes, hrecords, htypesText, hrecordsText⟩ := steps_of_renderHeaders hok
  obtain ⟨ds, hds, hdeclared⟩ := declareTypes_eq_ok htypes
  obtain ⟨rs, hrs, hdefined⟩ := defineRecords_eq_ok hrecords
  obtain ⟨_, _, _, hrecordLines⟩ := defineRecords_of_ok hrecords
  have htypesLines : ((includedTypes s m).flatMap fun t => (declareType s.canonicalLead t).lines) =
      ds.flatMap LightDeclaration.lines :=
    congrArg Emission.lines ((declareTypes_of_ok htypes).symm.trans hdeclared)
  have hrecordsLines : ((includedRecords s m).flatMap fun r =>
      (defineRecord (recordSettings s) s.canonicalLead r).lines) =
      rs.flatMap RecordDefinition.lines :=
    congrArg Emission.lines (hrecordLines.symm.trans hdefined)
  rw [htypesLines] at htypesText
  rw [hrecordsLines] at hrecordsText
  exact ⟨ds, rs, hds, hrs, htypesText, hrecordsText⟩

/-- Headers that are nothing but their heads, the texts of the single types in the order of the model,
and their feet. The first announces the records that the second defines. -/
structure Headers.Assembled (s : Settings) (m : Model) (h : Headers) : Prop where
  types : h.types.contents = unlines (headerHead m.name s.space s.typesFrame) ++
    String.join ((includedTypes s m).map fun t => (declareType s.canonicalLead t).text) ++
    unlines (headerFoot s.typesFrame)
  records : h.records.contents = unlines (headerHead m.name s.space s.recordsFrame) ++
    String.join ((includedRecords s m).map fun r =>
      (defineRecord (recordSettings s) s.canonicalLead r).text) ++
    unlines (headerFoot s.recordsFrame)
  counted : ∃ counts, List.Forall₂
      (fun r n => (defineRecord (recordSettings s) s.canonicalLead r).result = .ok n)
      (includedRecords s m) counts ∧ h.offsetCount = counts.sum
  announced : ((includedTypes s m).flatMap fun t =>
      (declareType s.canonicalLead t).lines).filter (beginsWith recordMark) =
    (includedRecords s m).map fun r => "struct " ++ mangle r.name ++ ";"
  defined : ((includedRecords s m).flatMap fun r =>
      (defineRecord (recordSettings s) s.canonicalLead r).lines).filter (beginsWith recordMark) =
    (includedRecords s m).map fun r => "struct " ++ mangle r.name ++ " \x7b"

theorem assembled_of_renderHeaders {s : Settings} {m : Model} {h : Headers}
    (hok : renderHeaders s m = .ok h) : h.Assembled s m := by
  obtain ⟨htypes, hrecords, htypesText, hrecordsText⟩ := steps_of_renderHeaders hok
  obtain ⟨counts, hcounts, hsum, _⟩ := defineRecords_of_ok hrecords
  have heach := each_of_declareTypes htypes
  rw [headerText_flatMap] at htypesText hrecordsText
  exact
    { types := htypesText
      records := hrecordsText
      counted := ⟨counts, hcounts, hsum⟩
      announced := declareTypes_filter_recordMark heach
      defined := defineRecords_filter_recordMark hcounts }

/-- Both headers are put together from single pieces. They are written exactly if every included
enumeration can be declared and every included record be defined. Otherwise the fault is that of the
first enumeration at fault, or, where there is none, that of the first record. -/
theorem renderHeaders_assembles (s : Settings) (m : Model) :
    ((∃ h, renderHeaders s m = .ok h) ↔
      (∀ e ∈ includedIntLikes s m, ∃ u, (declareType s.canonicalLead (.intLike e)).result = .ok u) ∧
      ∀ r ∈ includedRecords s m,
        ∃ n, (defineRecord (recordSettings s) s.canonicalLead r).result = .ok n) ∧
    (∀ h, renderHeaders s m = .ok h → h.Assembled s m) ∧
    ∀ e, renderHeaders s m = .error e ↔ firstFault s m = some e := by
  refine ⟨?_, ?_, renderHeaders_eq_error_iff_first s m⟩
  · rw [renderHeaders_finishes_iff, firstFault_eq_none_iff]
  · intro h hok
    exact assembled_of_renderHeaders hok

/-- Two records around an enumeration, in the order in which they are written. -/
def eventTypes : List AbiType :=
  [.record "event" [.simple "type" (.userDefined "eventtype"), .simple "error" (.userDefined "errno")],
    .intLike ⟨"eventtype", .uint8, false, none, [⟨"clock", 1⟩, ⟨"private", 2⟩]⟩,
    .aliasOf "timestamp" (.int .uint64),
    .record "clock" [.simple "deadline" (.userDefined "timestamp")]]

def eventModel : Model := .ofTypes "events" eventTypes rfl

/-- A record at fault before an enumeration at fault. -/
def faultyTypes : List AbiType :=
  [.record "event" [.simple "type" .void],
    .intLike ⟨"scope", .uint8, false, none, [⟨"private", 4⟩, ⟨"private_", 8⟩]⟩]

def faultyModel : Model := .ofTypes "events" faultyTypes rfl

theorem renderHeaders_assembles_events :
    (∃ h, renderHeaders .standard eventModel = .ok h ∧
      h.Assembled .standard eventModel ∧
      (eventTypes.flatMap fun t => (declareType "cloudabi_" t).lines).filter (beginsWith recordMark) =
        ["struct event;", "struct clock;"]) ∧
    renderHeaders .standard faultyModel = .error (.duplicateIdentifier "scope" "private_") := by
  obtain ⟨h, hok⟩ : ∃ h, renderHeaders .standard eventModel = .ok h := ⟨_, rfl⟩
  have hall := (renderHeaders_assembles .standard eventModel).2.1 h hok
  refine ⟨⟨h, hok, hall, hall.announced⟩, ?_⟩
  exact ((renderHeaders_assembles .standard faultyModel).2.2 _).2 rfl

end AbiLayout.Cpp
