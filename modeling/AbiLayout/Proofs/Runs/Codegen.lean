import AbiLayout.Run
import AbiLayout.Proofs.CommandLine.Verbosity
import AbiLayout.Proofs.Declarators.Refusal

/-!
# Rendering comes before writing

All that can fail before the first file is written is settled first: the description is read, then the
settings, then both headers are rendered. Main statement: a generating run that fails in any of these
leaves all files as they were, and what a run does does not depend on what it says on the way.
-/

namespace AbiLayout

open CommandLine Cpp
open Files (Disk)

/-- What a run has done, apart from what it has said. -/
structure Effect where
  exit : Nat
  failure : Option Failure
  disk : Disk

def Outcome.effect (o : Outcome) : Effect := ⟨o.exit, o.failure, o.disk⟩

/-- The failure of a rendering. -/
def renderFailure (m : Model) (e : RenderError) : Failure :=
  ⟨"generating C++ declarations for '" ++ m.name ++ "'", [e.message]⟩

/-- The headers of a run, which are known before anything is written. -/
def renderedHeaders (disk : Disk) (a : SharedOptions) : Except Failure Headers := do
  let m ← obtainModel disk a
  let s ← obtainSettings disk a
  (renderHeaders s m).mapError (renderFailure m)

/-- What is done once it is known whether there are headers. -/
def effectOf (disk : Disk) (outputDir : String) : Except Failure Headers → Effect
  | .error f => ⟨1, some f, disk⟩
  | .ok headers =>
    match writeHeaders disk outputDir headers with
    | (disk, .error e) => ⟨1, some ⟨"writing headers to " ++ outputDir, [e.message]⟩, disk⟩
    | (disk, .ok _) => ⟨0, none, disk⟩

/-- A generating run renders, and then it writes. -/
theorem effect_runCodegen (disk : Disk) (a : SharedOptions) (outputDir : String) :
    (runCodegen disk a outputDir).effect = effectOf disk outputDir (renderedHeaders disk a) := by
  rw [runCodegen, prepare, renderedHeaders]
  cases obtainModel disk a with
  | error f => rfl
  | ok m =>
    cases obtainSettings disk a with
    | error f => rfl
    | ok s =>
      simp only [Except.bind, Bind.bind]
      cases renderHeaders s m with
      | error e => rfl
      | ok headers =>
        simp only [Except.mapError, effectOf]
        split <;> simp_all [Outcome.effect]

theorem renderedHeaders_eq_ok_iff (disk : Disk) (a : SharedOptions) (headers : Headers) :
    renderedHeaders disk a = .ok headers ↔
      ∃ m s, obtainModel disk a = .ok m ∧ obtainSettings disk a = .ok s ∧
        renderHeaders s m = .ok headers := by
  simp only [renderedHeaders, bind_eq_ok_iff, mapError_eq_ok_iff]
  constructor
  · rintro ⟨m, hm, s, hs, hheaders⟩
    exact ⟨m, s, hm, hs, hheaders⟩
  · rintro ⟨m, s, hm, hs, hheaders⟩
    exact ⟨m, hm, s, hs, hheaders⟩

/-! ### Failures before the first file -/

theorem obtainModel_of_error {disk : Disk} {a : SharedOptions} {e : DescriptionError}
    (h : Model.load disk a.file = .error e) :
    obtainModel disk a = .error ⟨"loading ABI description " ++ a.file, e.causes⟩ := by
  rw [obtainModel, h]
  rfl

theorem obtainSettings_of_error {disk : Disk} {a : SharedOptions} {path : String}
    {e : SettingsError} (hpath : a.config = some path) (h : Settings.load disk path = .error e) :
    obtainSettings disk a = .error ⟨"loading generator config " ++ path, e.causes⟩ := by
  rw [obtainSettings, hpath]
  simp only [h]
  rfl

/-- Whatever the description is, a configuration that cannot be loaded leaves nothing to write. -/
theorem exists_error_of_obtainSettings {disk : Disk} {a : SharedOptions} {f : Failure}
    (h : obtainSettings disk a = .error f) : ∃ g, renderedHeaders disk a = .error g := by
  rw [renderedHeaders, h]
  cases obtainModel disk a with
  | error g => exact ⟨g, rfl⟩
  | ok m => exact ⟨f, rfl⟩

/-- A run that has failed and has left all files as they were. -/
structure Outcome.FailedUntouched (o : Outcome) (disk : Disk) (f : Failure) : Prop where
  exit : o.exit = 1
  failure : o.failure = some f
  disk : o.disk = disk

theorem failedUntouched_of_renderedHeaders {disk : Disk} {a : SharedOptions} {f : Failure}
    (h : renderedHeaders disk a = .error f) (outputDir : String) :
    (runCodegen disk a outputDir).FailedUntouched disk f := by
  have heffect := effect_runCodegen disk a outputDir
  rw [h] at heffect
  exact ⟨congrArg Effect.exit heffect, congrArg Effect.failure heffect,
    congrArg Effect.disk heffect⟩

theorem run_of_parse {disk : Disk} {args : List String} {a : SharedOptions} {outputDir : String}
    (h : parse args = some (.codegen a outputDir)) : run disk args = runCodegen disk a outputDir := by
  rw [run, h]
  rfl

theorem effect_runCodegen_verbose (disk : Disk) (a : SharedOptions) (outputDir : String)
    (verbose : Bool) :
    (runCodegen disk { a with verbose } outputDir).effect = (runCodegen disk a outputDir).effect := by
  rw [effect_runCodegen, effect_runCodegen]
  rfl

/-- Nothing is written unless the description, the settings and both headers are in order, and
verbosity has no effect on what is done. -/
theorem run_codegen_fails_untouched (disk : Disk) {args : List String} {a : SharedOptions}
    {outputDir : String} (hparse : parse args = some (.codegen a outputDir)) :
    (∀ e, Model.load disk a.file = .error e →
      (run disk args).FailedUntouched disk ⟨"loading ABI description " ++ a.file, e.causes⟩) ∧
    (∀ path e, a.config = some path → Settings.load disk path = .error e →
      ∃ f, (run disk args).FailedUntouched disk f) ∧
    (∀ m s e, obtainModel disk a = .ok m → obtainSettings disk a = .ok s →
      renderHeaders s m = .error e → (run disk args).FailedUntouched disk (renderFailure m e)) ∧
    (∀ args' verbose, parse args' = some (.codegen { a with verbose } outputDir) →
      (run disk args').effect = (run disk args).effect) ∧
    ∃ rest, args = "codegen" :: rest ∧
      ∀ flag, flag = "--verbose" ∨ flag = "-v" → a.verbose = false →
        (run disk ("codegen" :: flag :: rest)).effect = (run disk args).effect := by
  rw [run_of_parse hparse]
  refine ⟨fun e he => ?_, fun path e hpath he => ?_, fun m s e hm hs he => ?_,
    fun args' verbose hargs' => ?_, ?_⟩
  · apply failedUntouched_of_renderedHeaders
    rw [renderedHeaders, obtainModel_of_error he]
    rfl
  · obtain ⟨f, hf⟩ := exists_error_of_obtainSettings (obtainSettings_of_error hpath he)
    exact ⟨f, failedUntouched_of_renderedHeaders hf outputDir⟩
  · apply failedUntouched_of_renderedHeaders
    rw [renderedHeaders, hm, hs]
    simp only [Bind.bind, Except.bind, he]
    rfl
  · rw [run_of_parse hargs']
    exact effect_runCodegen_verbose disk a outputDir verbose
  · obtain ⟨rest, rfl⟩ := exists_of_parse_codegen hparse
    refine ⟨rest, rfl, fun flag hflag ha => ?_⟩
    rw [run_of_parse (parse_verbose hflag hparse ha)]
    exact effect_runCodegen_verbose disk a outputDir true

/-! ### A member without a value -/

/-- A description whose only fault shows when its record is rendered. -/
def voidMemberDisk : Disk where
  start := ["home"]
  root := .directory [("home", .directory [("m.json", .file
    ("\x7b\"abi\": \x7b\"name\": \"m\"\x7d, \"types\": [\x7b\"struct\": \x7b\"name\": \"s\", " ++
      "\"members\": [\x7b\"simple\": \x7b\"name\": \"x\", \"type\": \"void\"\x7d\x7d]\x7d\x7d]\x7d").toUTF8)])]

def plainOptions : SharedOptions := ⟨"m.json", none, ⟨none, none, []⟩, false⟩

theorem run_codegen_fails_untouched_void :
    parse ["codegen", "-f", "m.json", "-o", "out"] = some (.codegen plainOptions "out") ∧
    (run voidMemberDisk ["codegen", "-f", "m.json", "-o", "out"]).FailedUntouched voidMemberDisk
      ⟨"generating C++ declarations for 'm'", ["cannot declare 'x' with type void"]⟩ ∧
    (run voidMemberDisk ["codegen", "-v", "-f", "m.json", "-o", "out"]).effect =
      (run voidMemberDisk ["codegen", "-f", "m.json", "-o", "out"]).effect := by
  have hparse : parse ["codegen", "-f", "m.json", "-o", "out"] =
      some (.codegen plainOptions "out") := by decide +kernel
  have hsettings : obtainSettings voidMemberDisk plainOptions = .ok .standard := rfl
  have hmodel : ((obtainModel voidMemberDisk plainOptions).toOption.map fun m =>
      (m.name, faultOf (renderHeaders .standard m))) = some ("m", some (.voidValue "x")) := by
    decide +kernel
  obtain ⟨m, hm, hpair⟩ := Option.map_eq_some_iff.mp hmodel
  obtain ⟨hname, hfault⟩ := Prod.mk.inj hpair
  have hm' := (toOption_eq_some_iff _ m).mp hm
  have hfault' := (faultOf_eq_some_iff _ (.voidValue "x")).mp hfault
  obtain ⟨-, -, hlate, -, rest, hrest, hverbose⟩ :=
    run_codegen_fails_untouched voidMemberDisk hparse
  obtain rfl := (List.cons.inj hrest).2
  have hcontext : "generating C++ declarations for '" ++ m.name ++ "'" =
      "generating C++ declarations for 'm'" := by
    simp only [hname, String.reduceAppend]
  have hcauses : [(RenderError.voidValue "x").message] = ["cannot declare 'x' with type void"] := by
    decide +kernel
  have hfailure : renderFailure m (.voidValue "x") =
      ⟨"generating C++ declarations for 'm'", ["cannot declare 'x' with type void"]⟩ :=
    (Failure.mk.injEq ..).mpr ⟨hcontext, hcauses⟩
  exact ⟨hparse, hfailure ▸ hlate m .standard (.voidValue "x") hm' hsettings hfault',
    hverbose "-v" (.inr rfl) rfl⟩

end AbiLayout
