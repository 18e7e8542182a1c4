import AbiLayout.CommandLine
import AbiLayout.Cpp.Header
import AbiLayout.Description.Load
import AbiLayout.Json.Printer
import AbiLayout.Report.Analysis
import AbiLayout.Report.Dump
import AbiLayout.Report.Text
import AbiLayout.Settings.Load

/-!
# Runs

What a command line does to a tree of files: its exit code, what it prints, why it failed if it did, and
the files afterwards. Everything is rendered before the first file is written, so a run that fails
before leaves all files as they were.
-/

namespace AbiLayout

open CommandLine Cpp
open Files (Disk FileError)

/-- Why a run failed: what it was doing, and the causes behind that, the outermost first. -/
structure Failure where
  context : String
  causes : List String
deriving DecidableEq, Repr

/-- Text whose lines after the first begin with blanks. -/
def indentRest (blanks : String) (text : String) : String :=
  String.ofList (text.toList.flatMap fun c => if c = '\n' then c :: blanks.toList else [c])

def alignNumber (n : Nat) : String :=
  String.ofList (List.replicate (5 - n.repr.length) ' ') ++ n.repr

def numberedCauses (n : Nat) : List String → String
  | [] => ""
  | cause :: rest =>
    "\n" ++ alignNumber n ++ ": " ++ indentRest "       " cause ++ numberedCauses (n + 1) rest

/-- The report of a failure. A single cause stands without a number. -/
def Failure.text (f : Failure) : String :=
  "Error: " ++ f.context ++
    match f.causes with
    | [] => ""
    | [cause] => "\n\nCaused by:\n    " ++ indentRest "    " cause
    | causes => "\n\nCaused by:" ++ numberedCauses 0 causes

/-- What a run leaves behind. -/
structure Outcome where
  exit : Nat
  output : List String
  failure : Option Failure
  disk : Disk

def Outcome.text (o : Outcome) : String := unlines o.output

def Outcome.errorText (o : Outcome) : String :=
  match o.failure with
  | some f => f.text ++ "\n"
  | none => ""

/-- Lines that are printed only where they are asked for. -/
def spoken (verbose : Bool) (lines : List String) : List String := if verbose then lines else []

def obtainModel (disk : Disk) (a : SharedOptions) : Except Failure Model :=
  (Model.load disk a.file).mapError fun e => ⟨"loading ABI description " ++ a.file, e.causes⟩

/-- The settings of a run: those of its configuration, or the standard ones, under the overrides of the
command line. -/
def obtainSettings (disk : Disk) (a : SharedOptions) : Except Failure Settings :=
  match a.config with
  | some path =>
    ((Settings.load disk path).mapError fun e => ⟨"loading generator config " ++ path, e.causes⟩).map
      (·.override a.overrides)
  | none => .ok (Settings.standard.override a.overrides)

/-! ### What is said on the way -/

def startLines (outputDir : String) : List String :=
  ["ABI C++ Generator - Code Generation Tool",
   "========================================",
   "",
   "  Output directory: " ++ outputDir,
   ""]

def loadingLines (a : SharedOptions) : List String := ["[~] Loading ABI description " ++ a.file]

def loadedLines (m : Model) : List String :=
  ["[~] Loaded " ++ m.types.length.repr ++ " type definitions for '" ++ m.name ++ "'"] ++
    (m.types.filterMap AbiType.name?).map ("  - " ++ ·) ++ [""]

def settingsLines (s : Settings) : List String :=
  ["[~] Configuration:",
   "  Namespace: " ++ s.space,
   "  Canonical prefix: " ++ s.canonicalLead,
   "  Excluded types: " ++ s.exclude.names.length.repr] ++
    s.exclude.names.map ("    - " ++ ·) ++ [""]

def writtenLines (paths : List String) (count : Nat) : List String :=
  paths.map ("    - " ++ ·) ++ ["[~] " ++ count.repr ++ " offset assertions emitted"]

/-! ### Writing -/

def writeHeader (disk : Disk) (outputDir : String) (a : Header) : Except FileError (Disk × String) :=
  (disk.writeText (Files.join outputDir a.fileName) a.contents).map fun d =>
    (d, Files.join outputDir a.fileName)

/-- Writes both headers, the directory first. What was written before a failure stays. -/
def writeHeaders (disk : Disk) (outputDir : String) (a : Headers) :
    Disk × Except FileError (List String) :=
  match disk.makeDirectories outputDir with
  | (disk, .error e) => (disk, .error e)
  | (disk, .ok ()) =>
    match writeHeader disk outputDir a.types with
    | .error e => (disk, .error e)
    | .ok (disk, typesPath) =>
      match writeHeader disk outputDir a.records with
      | .error e => (disk, .error e)
      | .ok (disk, recordsPath) => (disk, .ok [typesPath, recordsPath])

/-! ### Commands -/

/-- What a run has to know before it does anything: the model, the settings, and the lines said while
they were loaded. -/
def prepare (disk : Disk) (a : SharedOptions) :
    List String × Except Failure (Model × Settings) :=
  match obtainModel disk a with
  | .error f => (spoken a.verbose (loadingLines a), .error f)
  | .ok m =>
    let said := spoken a.verbose (loadingLines a ++ loadedLines m)
    match obtainSettings disk a with
    | .error f => (said, .error f)
    | .ok s => (said ++ spoken a.verbose (settingsLines s), .ok (m, s))

def runCodegen (disk : Disk) (a : SharedOptions) (outputDir : String) : Outcome :=
  let start := spoken a.verbose (startLines outputDir)
  match prepare disk a with
  | (said, .error f) => ⟨1, start ++ said, some f, disk⟩
  | (said, .ok (m, s)) =>
    let said := start ++ said ++ spoken a.verbose ["[*] Starting code generation..."]
    match renderHeaders s m with
    | .error e =>
      ⟨1, said, some ⟨"generating C++ declarations for '" ++ m.name ++ "'", [e.message]⟩, disk⟩
    | .ok headers =>
      match writeHeaders disk outputDir headers with
      | (disk, .error e) =>
        ⟨1, said, some ⟨"writing headers to " ++ outputDir, [e.message]⟩, disk⟩
      | (disk, .ok paths) =>
        ⟨0, said ++ spoken a.verbose (writtenLines paths headers.offsetCount) ++
          ["[✓] Code generation complete!"], none, disk⟩

/-- Reports on a model, as a whole or on one type of it. -/
def runAnalyze (disk : Disk) (a : SharedOptions) (only : Option String) (json : Bool) : Outcome :=
  match prepare disk a with
  | (said, .error f) => ⟨1, said, some f, disk⟩
  | (said, .ok (m, s)) =>
    match only.filter fun name => (m.get? name).isNone with
    | some name =>
      ⟨1, said, some ⟨"type '" ++ name ++ "' not found in '" ++ m.name ++ "'", []⟩, disk⟩
    | none =>
      match analyze s m only with
      | .error e => ⟨1, said, some ⟨"analyzing '" ++ m.name ++ "'", [e.message]⟩, disk⟩
      | .ok report =>
        ⟨0, said ++ (if json then [Json.write report.dump] else report.lines), none, disk⟩

def runCommand (disk : Disk) : Command → Outcome
  | .codegen a outputDir => runCodegen disk a outputDir
  | .analyze a only json => runAnalyze disk a only json
  | .help => ⟨0, [], none, disk⟩

/-- Runs a command line; one that is refused exits with 2. -/
def run (disk : Disk) (args : List String) : Outcome :=
  match CommandLine.parse args with
  | some command => runCommand disk command
  | none => ⟨2, [], none, disk⟩

end AbiLayout
