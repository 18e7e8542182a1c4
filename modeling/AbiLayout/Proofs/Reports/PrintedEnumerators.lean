import AbiLayout.Proofs.Reports.Agreement
import AbiLayout.Proofs.Reports.Tables
import AbiLayout.Run

/-!
# Enumerators in a printed report

A printed report shows the enumerators under each enumeration, and whether a flags type is shown with a
`none` is decided anew when it is printed. Main statement: the tables of a printed report are those of the
enumerations in the header, name by name, but for the flags types that declare a zero of that name: there
the report has one `none` more.
-/

namespace AbiLayout

open Cpp
open CommandLine (SharedOptions parse)
open Files (Disk)

/-! ### The lines of a report -/

/-- The tables of the enumerations among the lines of a report. -/
def reportedTables : List String → List Table := tables (beginsWith "[enum") (beginsWith "    ")

def EnumEntry.title (e : EnumEntry) : String :=
  "[enum" ++ (if e.flags then " flags" else "") ++ "] " ++ e.name ++ " : " ++ e.intType.name ++
    " (" ++ e.generated ++ " -> " ++ e.canonical ++ ")"

def EnumEntry.rows (e : EnumEntry) : List String :=
  (if e.flags then ["    none = 0"] else []) ++ e.values.map ValueEntry.line

/-- The names that are shown under the title. -/
def EnumEntry.names (e : EnumEntry) : List String :=
  (if e.flags then [noneName] else []) ++ e.values.map ValueEntry.generated

theorem EnumEntry.lines_eq (e : EnumEntry) : e.lines = e.title :: e.rows := by
  rw [lines, List.append_assoc]
  rfl

theorem EnumEntry.title_eq_mark_append (e : EnumEntry) : ∃ rest, e.title = "[enum" ++ rest := by
  refine ⟨(if e.flags then " flags" else "") ++ "] " ++ e.name ++ " : " ++ e.intType.name ++
    " (" ++ e.generated ++ " -> " ++ e.canonical ++ ")", ?_⟩
  delta title
  simp only [String.append_assoc]

theorem ValueEntry.line_eq_blanks_append (v : ValueEntry) : ∃ rest, v.line = "    " ++ rest := by
  refine ⟨v.generated ++ " = " ++ v.canonical ++ " (0x" ++
    String.ofList (Text.hexDigits v.value.toNat) ++ ")", ?_⟩
  simp only [line, String.append_assoc]

theorem ValueEntry.firstWord_line (v : ValueEntry) (h : Text.isFragment v.generated = true) :
    firstWord v.line = v.generated := by
  have hequals : " = ".toList = ' ' :: "= ".toList := rfl
  have hline : v.line.toList = "    ".toList ++ v.generated.toList ++ ' ' ::
      ("= " ++ v.canonical ++ " (0x" ++ String.ofList (Text.hexDigits v.value.toNat) ++ ")").toList := by
    simp only [line, String.toList_append, hequals, List.append_assoc, List.cons_append]
  exact firstWord_eq h (by decide) hline

theorem EnumEntry.rows_eq_blanks_append (e : EnumEntry) : ∀ line ∈ e.rows, ∃ rest, line = "    " ++ rest := by
  rw [rows, List.forall_mem_append, List.forall_mem_map]
  refine ⟨?_, fun v _ => v.line_eq_blanks_append⟩
  split
  · intro line hline
    rw [List.mem_singleton.1 hline]
    exact ⟨"none = 0", rfl⟩
  · intro line hline
    cases hline

theorem EnumEntry.map_firstWord_rows (e : EnumEntry)
    (h : ∀ v ∈ e.values, Text.isFragment v.generated = true) : e.rows.map firstWord = e.names := by
  have hvalues : (e.values.map ValueEntry.line).map firstWord = e.values.map ValueEntry.generated := by
    rw [List.map_map]
    exact List.map_congr_left fun v hv => v.firstWord_line (h v hv)
  rw [rows, List.map_append, hvalues, names]
  split
  · rfl
  · rfl

theorem EnumEntry.reportedTables_lines (e : EnumEntry)
    (h : ∀ v ∈ e.values, Text.isFragment v.generated = true) :
    reportedTables e.lines = [⟨e.title, e.names⟩] := by
  have htitle : beginsWith "[enum" e.title = true := by
    obtain ⟨rest, hrest⟩ := e.title_eq_mark_append
    rw [hrest]
    exact beginsWith_append _ rest
  rw [e.lines_eq, ← List.append_nil (e.title :: e.rows), ← e.map_firstWord_rows h]
  refine tables_table htitle ?_ fresh_nil ?_
  · intro line hline
    obtain ⟨rest, rfl⟩ := e.rows_eq_blanks_append line hline
    exact beginsWith_append _ rest
  · rw [List.append_nil]
    intro line hline
    obtain ⟨rest, rfl⟩ := e.rows_eq_blanks_append line hline
    exact beginsWith_append_of_differ rest (by decide)

theorem EnumEntry.fresh_lines (e : EnumEntry) : Fresh (beginsWith "    ") e.lines := by
  obtain ⟨rest, hrest⟩ := e.title_eq_mark_append
  rw [e.lines_eq, hrest]
  exact fresh_cons (beginsWith_append_of_differ rest (by decide))

theorem RecordEntry.lines_not_enum (e : RecordEntry) :
    ∀ line ∈ e.lines, beginsWith "[enum" line = false := by
  rw [lines, List.forall_mem_cons, List.forall_mem_map]
  refine ⟨?_, fun o _ => ?_⟩
  · simp only [String.append_assoc]
    exact beginsWith_append_of_differ _ (by decide)
  · simp only [offsetLine, String.append_assoc]
    exact beginsWith_append_of_differ _ (by decide)

theorem RecordEntry.fresh_lines (e : RecordEntry) : Fresh (beginsWith "    ") e.lines := by
  refine fresh_cons ?_
  simp only [String.append_assoc]
  exact beginsWith_append_of_differ _ (by decide)

namespace Report

def opening (r : Report) : List String :=
  ["ABI C++ Generator - Layout Analysis", "===================================", "",
    "[~] ABI: " ++ r.abi] ++
    (if r.excluded.isEmpty then []
      else ["[~] Excluded (hand-maintained): " ++ ", ".intercalate r.excluded]) ++ [""]

def gap (r : Report) : List String := if r.enums.isEmpty then [] else [""]

def summary (r : Report) : List String :=
  ["", "[✓] " ++ r.offsetCount.repr ++ " offset assertion(s) across " ++ r.records.length.repr ++
    " record(s)"]

theorem lines_eq (r : Report) : r.lines = r.opening ++ r.enums.flatMap EnumEntry.lines ++ r.gap ++
    r.records.flatMap RecordEntry.lines ++ r.summary := rfl

theorem opening_not_enum (r : Report) : ∀ line ∈ r.opening, beginsWith "[enum" line = false := by
  simp only [opening, List.forall_mem_append, List.forall_mem_cons]
  refine ⟨⟨⟨by decide, by decide, by decide, beginsWith_append_of_differ _ (by decide), by decide⟩, ?_⟩,
    by decide⟩
  split
  · decide
  · rw [List.forall_mem_singleton]
    exact beginsWith_append_of_differ _ (by decide)

theorem gap_not_enum (r : Report) : ∀ line ∈ r.gap, beginsWith "[enum" line = false := by
  rw [gap]
  split
  · decide
  · decide

theorem fresh_gap (r : Report) : Fresh (beginsWith "    ") r.gap := by
  rw [gap]
  split
  · exact fresh_nil
  · exact fresh_cons (by decide)

theorem summary_not_enum (r : Report) : ∀ line ∈ r.summary, beginsWith "[enum" line = false := by
  simp only [summary, List.forall_mem_cons, String.append_assoc]
  exact ⟨by decide, beginsWith_append_of_differ _ (by decide), by decide⟩

theorem reportedTables_lines (r : Report)
    (h : ∀ e ∈ r.enums, ∀ v ∈ e.values, Text.isFragment v.generated = true) :
    reportedTables r.lines = r.enums.map fun e => ⟨e.title, e.names⟩ := by
  -- behind the enumerations there is no title, and no row that would carry on the last of them
  have hrest : ∀ line ∈ r.gap ++ (r.records.flatMap RecordEntry.lines ++ r.summary),
      beginsWith "[enum" line = false := by
    rw [List.forall_mem_append, List.forall_mem_append, List.forall_mem_flatMap]
    exact ⟨r.gap_not_enum, fun e _ => e.lines_not_enum, r.summary_not_enum⟩
  have hfresh : Fresh (beginsWith "    ")
      (r.gap ++ (r.records.flatMap RecordEntry.lines ++ r.summary)) :=
    fresh_append r.fresh_gap (fresh_append (fresh_flatMap fun e _ => e.fresh_lines) (fresh_cons (by decide)))
  rw [lines_eq, List.append_assoc, List.append_assoc, List.append_assoc, reportedTables,
    tables_append_of_untitled r.opening_not_enum, tables_append hfresh, tables_eq_nil hrest, List.append_nil,
    tables_flatMap fun e _ => e.fresh_lines, List.map_eq_flatMap]
  exact List.flatMap_congr fun e he => e.reportedTables_lines (h e he)

theorem enums_ofModel_only (s : Settings) (m : Model) (only : Option String) :
    (ofModel s m only).enums =
      ((includedIntLikes s m).filter fun e => only.all (· == e.name)).map (enumEntry s.canonicalLead) := by
  cases only with
  | none =>
    have hall : ((includedIntLikes s m).filter fun e => (none : Option String).all (· == e.name)) =
        includedIntLikes s m := List.filter_eq_self.2 fun _ _ => rfl
    rw [enums_ofModel, hall]
  | some name =>
    rw [ofModel_some, restricted]
    simp only [enums_ofModel, List.filter_map]
    congr 2
    funext e
    exact BEq.comm

end Report

/-! ### Both sides -/

theorem IntLike.isFragment_enumeratorNames (e : IntLike) :
    ∀ name ∈ e.enumeratorNames, Text.isFragment name = true := by
  rw [enumeratorNames, List.forall_mem_append, List.forall_mem_map]
  refine ⟨?_, fun v _ => isFragment_generatedValue v⟩
  split
  · decide
  · decide

/-- The report shows the names of the enumerators, and one `none` more where a flags type declares it. -/
theorem names_enumEntry (lead : String) (e : IntLike) :
    (enumEntry lead e).names =
      (if e.flags && e.declaresNone then [noneName] else []) ++ e.enumeratorNames := by
  have hvalues : (e.values.map (valueEntry lead e)).map ValueEntry.generated =
      e.values.map generatedValue := by
    rw [List.map_map]
    rfl
  rw [EnumEntry.names, enumEntry, hvalues, IntLike.enumeratorNames]
  cases e.flags with
  | false => rfl
  | true =>
    cases e.declaresNone with
    | false => rfl
    | true => rfl

namespace Cpp

/-- The lines of the light declarations of a model, between the head and the foot of their header. -/
def typeLines (s : Settings) (m : Model) : List String :=
  (includedTypes s m).flatMap fun t => (declareType s.canonicalLead t).lines

theorem declareType_not_mark {mark : String} (husing : differ mark "using " = true)
    (hstruct : differ mark "struct " = true) (hend : beginsWith mark "" = false) (lead : String)
    {t : AbiType} (ht : t.intLike? = none) :
    ∀ line ∈ (declareType lead t).lines, beginsWith mark line = false := by
  have hnone : ∀ line ∈ [""], beginsWith mark line = false := List.forall_mem_singleton.2 hend
  cases t with
  | aliasOf name type =>
    refine List.forall_mem_cons.2 ⟨?_, hnone⟩
    simp only [String.append_assoc]
    exact beginsWith_append_of_differ _ husing
  | intLike e => cases ht
  | record name members =>
    refine List.forall_mem_cons.2 ⟨?_, hnone⟩
    simp only [String.append_assoc]
    exact beginsWith_append_of_differ _ hstruct
  | _ =>
    intro line hline
    cases hline

theorem fresh_declareType (lead : String) {t : AbiType} (h : (declareType lead t).result = .ok ()) :
    Fresh (beginsWith "  ") (declareType lead t).lines := by
  cases t with
  | intLike e =>
    have hconsistent := (declareType_intLike_eq_ok_iff lead e).1 h
    rw [declareType_of_consistent lead hconsistent, Enumeration.lines_eq]
    refine fresh_cons ?_
    delta Enumeration.headline
    simp only [String.append_assoc]
    exact beginsWith_append_of_differ _ (by decide)
  | _ => exact fresh_of_forall (declareType_not_mark (by decide) (by decide) (by decide) lead rfl)

theorem declaredTables_declareType (lead : String) {t : AbiType}
    (h : (declareType lead t).result = .ok ()) :
    declaredTables (declareType lead t).lines =
      t.intLike?.toList.map fun e => ⟨(e.declared lead).headline, e.enumeratorNames⟩ := by
  cases t with
  | intLike e =>
    have hconsistent := (declareType_intLike_eq_ok_iff lead e).1 h
    have hnames := e.names_declared lead
    have hfragments : ∀ x ∈ (e.declared lead).enumerators, Text.isFragment x.name = true := by
      intro x hx
      apply e.isFragment_enumeratorNames
      rw [← hnames]
      exact List.mem_map_of_mem hx
    rw [declareType_of_consistent lead hconsistent, (e.declared lead).declaredTables_lines _ hfragments,
      hnames]
    rfl
  | _ => exact tables_eq_nil (declareType_not_mark (by decide) (by decide) (by decide) lead rfl)

theorem declaredTables_typeLines {s : Settings} {m : Model}
    (h : ∀ t ∈ includedTypes s m, (declareType s.canonicalLead t).result = .ok ()) :
    declaredTables (typeLines s m) = (includedIntLikes s m).map fun e =>
      ⟨(e.declared s.canonicalLead).headline, e.enumeratorNames⟩ := by
  rw [declaredTables, typeLines, tables_flatMap fun t ht => fresh_declareType _ (h t ht), includedIntLikes,
    List.filterMap_eq_flatMap_toList, List.map_flatMap]
  exact List.flatMap_congr fun t ht => declaredTables_declareType _ (h t ht)

end Cpp

/-! ### Runs -/

theorem spoken_subset (verbose : Bool) (lines : List String) : spoken verbose lines ⊆ lines := by
  rw [spoken]
  split
  · exact List.Subset.refl _
  · exact List.nil_subset _

/-- What is said while a model and its settings are loaded titles no enumeration. -/
theorem prepare_not_enum {disk : Disk} {a : SharedOptions} {said : List String} {m : Model}
    {s : Settings} (h : prepare disk a = (said, .ok (m, s))) :
    ∀ line ∈ said, beginsWith "[enum" line = false := by
  have hloading : ∀ line ∈ loadingLines a, beginsWith "[enum" line = false :=
    List.forall_mem_singleton.2 (beginsWith_append_of_differ _ (by decide))
  have hloaded : ∀ line ∈ loadedLines m, beginsWith "[enum" line = false := by
    simp only [loadedLines, List.forall_mem_append, List.forall_mem_singleton, List.forall_mem_map,
      String.append_assoc]
    refine ⟨⟨?_, fun name _ => ?_⟩, by decide⟩
    · exact beginsWith_append_of_differ _ (by decide)
    · exact beginsWith_append_of_differ name (by decide)
  have hsettings : ∀ line ∈ settingsLines s, beginsWith "[enum" line = false := by
    simp only [settingsLines, List.forall_mem_append, List.forall_mem_cons, List.forall_mem_map]
    refine ⟨⟨⟨by decide, ?_, ?_, ?_, by decide⟩, fun name _ => ?_⟩, by decide⟩
    · exact beginsWith_append_of_differ s.space (by decide)
    · exact beginsWith_append_of_differ s.canonicalLead (by decide)
    · exact beginsWith_append_of_differ _ (by decide)
    · exact beginsWith_append_of_differ name (by decide)
  rw [prepare] at h
  cases hmodel : obtainModel disk a with
  | error f =>
    rw [hmodel] at h
    cases h
  | ok m' =>
    cases hsettled : obtainSettings disk a with
    | error f =>
      simp only [hmodel, hsettled] at h
      cases h
    | ok s' =>
      simp only [hmodel, hsettled] at h
      cases h
      intro line hline
      rcases List.mem_append.1 hline with hline | hline
      · exact List.forall_mem_append.2 ⟨hloading, hloaded⟩ line (spoken_subset _ _ hline)
      · exact hsettings line (spoken_subset _ _ hline)

theorem run_analyze_of_parse {disk : Disk} {args : List String} {a : SharedOptions}
    {only : Option String} {said : List String} {m : Model} {s : Settings}
    (hparse : parse args = some (.analyze a only false)) (hprepare : prepare disk a = (said, .ok (m, s)))
    (honly : ∀ name ∈ only, (m.get? name).isSome = true) :
    run disk args = ⟨0, said ++ (Report.ofModel s m only).lines, none, disk⟩ := by
  have hfound : (only.filter fun name => (m.get? name).isNone) = none := by
    rw [Option.filter_eq_none_iff]
    intro name hname
    rw [Option.isNone_eq_false_iff.2 (honly name hname)]
    exact Bool.false_ne_true
  rw [run, hparse]
  simp only [runCommand, runAnalyze, hprepare, hfound, analyze_eq]
  rfl

/-- The printed report has a table for each enumeration that it is about, with the enumerators of the table
in the header, one by one and in order; only a flags type that declares the name `none` for its empty set is
shown with one `none` too many, in front. -/
theorem analyze_prints_enumerators (s : Settings) (m : Model) (only : Option String) (h : Headers)
    (hok : renderHeaders s m = .ok h) :
    h.types.contents = headerText m.name s.space s.typesFrame (typeLines s m) ∧
    declaredTables (typeLines s m) = ((includedIntLikes s m).map fun e =>
      ⟨(e.declared s.canonicalLead).headline, e.enumeratorNames⟩) ∧
    ∃ r, analyze s m only = .ok r ∧
      reportedTables r.lines =
        (((includedIntLikes s m).filter fun e => only.all (· == e.name)).map fun e =>
          ⟨(enumEntry s.canonicalLead e).title,
            (if e.flags && e.declaresNone then ["none"] else []) ++ e.enumeratorNames⟩) ∧
      ∀ disk args a said, parse args = some (.analyze a only false) →
        prepare disk a = (said, .ok (m, s)) → (∀ name ∈ only, (m.get? name).isSome = true) →
        ∃ out, run disk args = ⟨0, out, none, disk⟩ ∧ reportedTables out = reportedTables r.lines := by
  obtain ⟨htypes, _, htext, _⟩ := steps_of_renderHeaders hok
  have hfragments : ∀ e ∈ (Report.ofModel s m only).enums, ∀ v ∈ e.values,
      Text.isFragment v.generated = true := by
    rw [Report.enums_ofModel_only, List.forall_mem_map]
    intro e _ v hv
    obtain ⟨w, _, rfl⟩ := List.mem_map.1 hv
    exact isFragment_generatedValue w
  have hreported := (Report.ofModel s m only).reportedTables_lines hfragments
  refine ⟨htext, declaredTables_typeLines (each_of_declareTypes htypes), Report.ofModel s m only,
    analyze_eq s m only, ?_, ?_⟩
  · rw [hreported, Report.enums_ofModel_only, List.map_map]
    refine List.map_congr_left fun e _ => ?_
    rw [Function.comp_apply, names_enumEntry]
    rfl
  · -- what is said in front of the report holds no table
    intro disk args a said hparse hprepare honly
    refine ⟨_, run_analyze_of_parse hparse hprepare honly, ?_⟩
    exact tables_append_of_untitled (prepare_not_enum hprepare) _

/-- A description of one flags type, whose value is given a reserved word. -/
def modeDisk : Disk where
  start := ["home"]
  root := .directory [("home", .directory [("m.json", .file
    ("\x7b\"abi\": \x7b\"name\": \"m\"\x7d, \"types\": [\x7b\"int-like\": \x7b\"name\": \"mode\", " ++
      "\"int-type\": \"uint8\", \"flags\": true, \"values\": [\x7b\"name\": \"if\", \"value\": 1\x7d]\x7d\x7d]\x7d").toUTF8)])]

def modeOptions : SharedOptions := ⟨"m.json", none, ⟨none, none, []⟩, true⟩

def modeFlags : IntLike := ⟨"mode", .uint8, true, none, [⟨"if", 1⟩]⟩

theorem analyze_prints_enumerators_mode :
    ∃ out, run modeDisk ["analyze", "-v", "-f", "m.json"] = ⟨0, out, none, modeDisk⟩ ∧
      reportedTables out =
        [⟨"[enum flags] mode : uint8 (mode -> cloudabi_mode_t)", ["none", "if_"]⟩] := by
  have hparse : parse ["analyze", "-v", "-f", "m.json"] = some (.analyze modeOptions none false) := by
    decide +kernel
  have hsettings : obtainSettings modeDisk modeOptions = .ok .standard := rfl
  have hloaded : ((obtainModel modeDisk modeOptions).toOption.map fun m =>
      ((renderHeaders .standard m).toOption.isSome, includedIntLikes .standard m)) =
        some (true, [modeFlags]) := by
    decide +kernel
  obtain ⟨m, hm, hpair⟩ := Option.map_eq_some_iff.mp hloaded
  obtain ⟨hheaders, henums⟩ := Prod.mk.inj hpair
  have hmodel := (toOption_eq_some_iff _ m).mp hm
  obtain ⟨h, hrendered⟩ := Option.isSome_iff_exists.mp hheaders
  have hok := (toOption_eq_some_iff _ h).mp hrendered
  have hprepare : ∃ said, prepare modeDisk modeOptions = (said, .ok (m, .standard)) := by
    simp only [prepare, hmodel, hsettings]
    exact ⟨_, rfl⟩
  obtain ⟨said, hsaid⟩ := hprepare
  obtain ⟨-, -, r, -, hreported, hruns⟩ := analyze_prints_enumerators .standard m none h hok
  obtain ⟨out, hrun, hout⟩ := hruns modeDisk _ modeOptions said hparse hsaid fun _ hname => by cases hname
  refine ⟨out, hrun, ?_⟩
  rw [hout, hreported, henums]
  decide +kernel

/-- A flags type that declares its empty set. -/
def zeroModel : Model := .ofTypes "m" [.intLike ⟨"f", .uint8, true, none, [⟨"none", 0⟩, ⟨"a", 1⟩]⟩] rfl

/-- The header declares `none` once, the report shows it twice. -/
theorem declared_none_is_printed_twice :
    (renderHeaders .standard zeroModel).toOption.isSome = true ∧
    declaredTables (typeLines .standard zeroModel) =
      [⟨"enum class f : cloudabi_f_t \x7b", ["none", "a"]⟩] ∧
    (analyze .standard zeroModel none).toOption.map (fun r => reportedTables r.lines) =
      some [⟨"[enum flags] f : uint8 (f -> cloudabi_f_t)", ["none", "none", "a"]⟩] := by
  decide +kernel

end AbiLayout
