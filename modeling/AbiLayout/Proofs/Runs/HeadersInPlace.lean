import AbiLayout.Proofs.Files.PlainNames
import AbiLayout.Proofs.Runs.Codegen

/-!
# The headers that a run leaves

A run writes the header of the types, then that of the records. Main statement: after a run that ends
well the path of the records' header holds its contents, and so does that of the types' header unless
both paths lead to one place, where the second header has replaced the first. The trees of files have no
links, so two paths share a file only at one place.
-/

namespace AbiLayout

open CommandLine Cpp
open Files (Disk FileError IsPlainName join)

theorem writeText_of_writeHeader {disk disk' : Disk} {outputDir path : String} {a : Header}
    (h : writeHeader disk outputDir a = .ok (disk', path)) :
    disk.writeText (join outputDir a.fileName) a.contents = .ok disk' := by
  obtain ⟨next, hwrite, h⟩ := map_eq_ok_iff.1 h
  cases h
  exact hwrite

/-- What is written where, when both headers are written. -/
theorem writeHeaders_eq_ok {disk disk' : Disk} {outputDir : String} {headers : Headers}
    {paths : List String} (h : writeHeaders disk outputDir headers = (disk', .ok paths)) :
    ∃ made between : Disk,
      made.writeText (join outputDir headers.types.fileName) headers.types.contents = .ok between ∧
      between.writeText (join outputDir headers.records.fileName) headers.records.contents =
        .ok disk' := by
  rw [writeHeaders] at h
  split at h
  · cases h
  rename_i made hmade
  split at h
  · cases h
  rename_i between typesPath htypes
  split at h
  · cases h
  rename_i final recordsPath hrecords
  cases h
  exact ⟨made, between, writeText_of_writeHeader htypes, writeText_of_writeHeader hrecords⟩

theorem effectOf_of_exit_zero {disk : Disk} {outputDir : String} {r : Except Failure Headers}
    (h : (effectOf disk outputDir r).exit = 0) :
    ∃ headers paths, r = .ok headers ∧
      writeHeaders disk outputDir headers = ((effectOf disk outputDir r).disk, .ok paths) := by
  cases r with
  | error f => cases h
  | ok headers =>
    cases hwrite : writeHeaders disk outputDir headers with
    | mk disk' result =>
      cases result with
      | error e => simp [effectOf, hwrite] at h
      | ok paths => exact ⟨headers, paths, rfl, by simp [effectOf, hwrite]⟩

theorem fileNames_of_renderHeaders {s : Settings} {m : Model} {headers : Headers}
    (h : renderHeaders s m = .ok headers) :
    headers.types.fileName = s.typesFrame.fileName ∧
      headers.records.fileName = s.recordsFrame.fileName := by
  obtain ⟨types, htypes, h⟩ := (bind_eq_ok_iff _ _ _).mp h
  obtain ⟨⟨records, count⟩, hrecords, h⟩ := (bind_eq_ok_iff _ _ _).mp h
  cases h
  rw [renderTypes] at htypes
  rw [renderRecords] at hrecords
  obtain ⟨_, -, rfl⟩ := map_eq_ok_iff.1 htypes
  obtain ⟨_, -, hrecord⟩ := map_eq_ok_iff.1 hrecords
  cases hrecord
  exact ⟨rfl, rfl⟩

/-- A run that ends well has rendered both headers. Its files hold the header of the records, and that
of the types unless both paths lead to one place; different plain names lead to different ones. -/
theorem run_codegen_leaves_headers {disk : Disk} {args : List String} {a : SharedOptions}
    {outputDir : String} (hparse : parse args = some (.codegen a outputDir))
    (hexit : (run disk args).exit = 0) :
    ∃ m s headers typesPlace recordsPlace,
      obtainModel disk a = .ok m ∧ obtainSettings disk a = .ok s ∧ renderHeaders s m = .ok headers ∧
      (run disk args).disk.locate (join outputDir s.typesFrame.fileName) = .ok typesPlace ∧
      (run disk args).disk.locate (join outputDir s.recordsFrame.fileName) = .ok recordsPlace ∧
      (run disk args).disk.readBytes (join outputDir s.recordsFrame.fileName) =
        .ok headers.records.contents.toUTF8 ∧
      (run disk args).disk.readBytes (join outputDir s.typesFrame.fileName) =
        .ok (if typesPlace = recordsPlace then headers.records.contents
          else headers.types.contents).toUTF8 ∧
      (IsPlainName s.typesFrame.fileName → IsPlainName s.recordsFrame.fileName →
        s.typesFrame.fileName ≠ s.recordsFrame.fileName → typesPlace ≠ recordsPlace) := by
  rw [run_of_parse hparse] at hexit ⊢
  have heffect := effect_runCodegen disk a outputDir
  have hdisk : (runCodegen disk a outputDir).disk =
      (effectOf disk outputDir (renderedHeaders disk a)).disk := congrArg Effect.disk heffect
  obtain ⟨headers, paths, hrendered, hwrite⟩ :=
    effectOf_of_exit_zero ((congrArg Effect.exit heffect).symm.trans hexit)
  rw [← hdisk] at hwrite
  obtain ⟨m, s, hm, hs, hheaders⟩ := (renderedHeaders_eq_ok_iff disk a headers).mp hrendered
  obtain ⟨htypesName, hrecordsName⟩ := fileNames_of_renderHeaders hheaders
  obtain ⟨made, between, htypes, hrecords⟩ := writeHeaders_eq_ok hwrite
  rw [htypesName] at htypes
  rw [hrecordsName] at hrecords
  obtain ⟨recordsPlace, typesPlace, hrecordsPlace, htypesPlace, hread⟩ :=
    Disk.readBytes_writeBytes_of_readBytes hrecords (Disk.readBytes_writeBytes htypes)
  refine ⟨m, s, headers, typesPlace, recordsPlace, hm, hs, hheaders, htypesPlace, hrecordsPlace,
    Disk.readBytes_writeBytes hrecords, ?_, fun ht hr hne => ?_⟩
  · rw [hread]
    split <;> rfl
  · exact Files.places_ne_of_isPlainName ht hr hne htypesPlace hrecordsPlace

/-! ### With and without names of their own -/

def emptyRecordText : String :=
  "\x7b\"abi\": \x7b\"name\": \"m\"\x7d, \"types\": [\x7b\"struct\": \x7b\"name\": \"s\"\x7d\x7d]\x7d"

/-- A description, and a configuration that gives both headers one name. -/
def sharedNameDisk : Disk where
  start := []
  root := .directory
    [("m.json", .file emptyRecordText.toUTF8),
      ("c.yaml", .file ("types-artifact: \x7bfile-name: a.hpp, header-guard: T\x7d\n" ++
        "structs-artifact: \x7bfile-name: a.hpp, header-guard: S\x7d\n").toUTF8)]

theorem run_codegen_leaves_headers_standard :
    parse ["codegen", "-f", "m.json", "-o", "out"] = some (.codegen plainOptions "out") ∧
    (run sharedNameDisk ["codegen", "-f", "m.json", "-o", "out"]).exit = 0 ∧
    ∃ headers, renderedHeaders sharedNameDisk plainOptions = .ok headers ∧
      (run sharedNameDisk ["codegen", "-f", "m.json", "-o", "out"]).disk.readBytes
        "out/cloudabi_structs.hpp" = .ok headers.records.contents.toUTF8 ∧
      (run sharedNameDisk ["codegen", "-f", "m.json", "-o", "out"]).disk.readBytes
        "out/cloudabi_types.hpp" = .ok headers.types.contents.toUTF8 := by
  have hparse : parse ["codegen", "-f", "m.json", "-o", "out"] =
      some (.codegen plainOptions "out") := by decide +kernel
  have hexit : (run sharedNameDisk ["codegen", "-f", "m.json", "-o", "out"]).exit = 0 := by
    decide +kernel
  refine ⟨hparse, hexit, ?_⟩
  obtain ⟨m, s, headers, typesPlace, recordsPlace, hm, hs, hheaders, -, -, hrecords, htypes, hne⟩ :=
    run_codegen_leaves_headers hparse hexit
  obtain rfl : Settings.standard = s := Except.ok.inj hs
  have hplaces : typesPlace ≠ recordsPlace := hne ⟨by decide, by decide, by decide, by decide⟩
    ⟨by decide, by decide, by decide, by decide⟩ (by decide)
  rw [if_neg hplaces] at htypes
  have hpaths : join "out" Settings.standard.typesFrame.fileName = "out/cloudabi_types.hpp" ∧
      join "out" Settings.standard.recordsFrame.fileName = "out/cloudabi_structs.hpp" := by
    decide +kernel
  rw [hpaths.1] at htypes
  rw [hpaths.2] at hrecords
  exact ⟨headers, (renderedHeaders_eq_ok_iff _ _ _).mpr ⟨m, _, hm, hs, hheaders⟩, hrecords, htypes⟩

def sharedNameOptions : SharedOptions := ⟨"m.json", some "c.yaml", ⟨none, none, []⟩, false⟩

/-- Headers of one name: the run ends well, and the header of the types is lost. -/
theorem run_codegen_shared_name :
    parse ["codegen", "-f", "m.json", "-c", "c.yaml", "-o", "out"] =
      some (.codegen sharedNameOptions "out") ∧
    (run sharedNameDisk ["codegen", "-f", "m.json", "-c", "c.yaml", "-o", "out"]).exit = 0 ∧
    ∃ headers, renderedHeaders sharedNameDisk sharedNameOptions = .ok headers ∧
      headers.types.fileName = "a.hpp" ∧
      (run sharedNameDisk ["codegen", "-f", "m.json", "-c", "c.yaml", "-o", "out"]).disk.readBytes
        "out/a.hpp" ≠ .ok headers.types.contents.toUTF8 := by
  have hlost : ((renderedHeaders sharedNameDisk sharedNameOptions).toOption.map fun headers =>
      decide (headers.types.fileName = "a.hpp" ∧
        ((run sharedNameDisk ["codegen", "-f", "m.json", "-c", "c.yaml", "-o", "out"]).disk.readBytes
          "out/a.hpp").toOption ≠ some headers.types.contents.toUTF8)) = some true := by
    decide +kernel
  obtain ⟨headers, hheaders, hname⟩ := Option.map_eq_some_iff.mp hlost
  obtain ⟨hname, hbytes⟩ := of_decide_eq_true hname
  exact ⟨by decide +kernel, by decide +kernel, headers, (toOption_eq_some_iff _ _).mp hheaders, hname,
    fun hread => hbytes ((toOption_eq_some_iff _ _).mpr hread)⟩

end AbiLayout
