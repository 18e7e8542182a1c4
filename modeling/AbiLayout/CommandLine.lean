import AbiLayout.Settings.Basic

/-!
# Command lines

What the arguments of a run ask for. Options may be written long or short, with their value attached or
after them, and short flags may stand together. A line is refused if an option or argument is unknown,
given twice, without its value, or missing though it is required.
-/

namespace AbiLayout.CommandLine

structure SharedOptions where
  file : String
  config : Option String
  overrides : Settings.Overrides
  verbose : Bool
deriving DecidableEq, Repr

inductive Command where
  | codegen (args : SharedOptions) (outputDir : String)
  | analyze (args : SharedOptions) (only : Option String) (json : Bool)
  /-- Only the usage is asked for. -/
  | help
deriving DecidableEq, Repr

def Command.sources : Command → List String
  | codegen a _ | analyze a _ _ => a.file :: a.config.toList
  | help => []

def Command.target? : Command → Option String
  | codegen _ outputDir => some outputDir
  | analyze .. | help => none

/-! ### Options -/

inductive OptionName where
  | file
  | config
  | space
  | canonicalLead
  | exclude
  | verbose
  | output
  | type
  | json
  | help
deriving DecidableEq, Repr

namespace OptionName

def long : OptionName → String
  | file => "file"
  | config => "config"
  | space => "namespace"
  | canonicalLead => "prefix"
  | exclude => "exclude"
  | verbose => "verbose"
  | output => "output"
  | type => "type"
  | json => "json"
  | help => "help"

def short? : OptionName → Option Char
  | file => some 'f'
  | config => some 'c'
  | exclude => some 'x'
  | verbose => some 'v'
  | output => some 'o'
  | type => some 't'
  | help => some 'h'
  | space | canonicalLead | json => none

/-- A flag has no value. -/
def isFlag : OptionName → Bool
  | verbose | json | help => true
  | _ => false

/-- Whether the value is a path, which cannot be empty. -/
def isPath : OptionName → Bool
  | file | config | output => true
  | _ => false

def isRepeatable : OptionName → Bool
  | exclude => true
  | _ => false

end OptionName

inductive CommandName where
  | codegen
  | analyze
deriving DecidableEq, Repr

def CommandName.options : CommandName → List OptionName
  | codegen => [.file, .config, .space, .canonicalLead, .exclude, .verbose, .output, .help]
  | analyze => [.file, .config, .space, .canonicalLead, .exclude, .verbose, .type, .json, .help]

/-- The options that have been given, with their values, in order. -/
abbrev Given : Type := List (OptionName × String)

/-- Why a line is not read to its end. -/
inductive Stop where
  | refused
  | help
deriving DecidableEq, Repr

def give (given : Given) (o : OptionName) (value : String) : Except Stop Given :=
  if o.isPath && value.isEmpty then .error .refused
  else if !o.isRepeatable && given.any (·.1 == o) then .error .refused
  else .ok (given ++ [(o, value)])

def giveFlag (given : Given) (o : OptionName) : Except Stop Given :=
  if o = .help then .error .help else give given o ""

/-- Reads the short options of one argument. An option with a value takes the rest of the argument, or
is left waiting for the next. -/
def readShorts (options : List OptionName) (given : Given) :
    List Char → Except Stop (Given × Option OptionName)
  | [] => .ok (given, none)
  | c :: rest =>
    match options.find? fun o => o.short? == some c with
    | none => .error .refused
    | some o =>
      if o.isFlag then do readShorts options (← giveFlag given o) rest
      else match rest with
        | [] => .ok (given, some o)
        | '=' :: value => do return (← give given o (String.ofList value), none)
        | value => do return (← give given o (String.ofList value), none)

/-- Reads a long option, which may have its value after a sign of equality. -/
def readLong (options : List OptionName) (given : Given) (text : List Char) :
    Except Stop (Given × Option OptionName) :=
  let name := text.takeWhile (· != '=')
  let attached := match text.dropWhile (· != '=') with
    | _ :: value => some (String.ofList value)
    | [] => none
  match options.find? fun o => o.long.toList == name with
  | none => .error .refused
  | some o =>
    if o.isFlag then
      if attached.isSome then .error .refused else do return (← giveFlag given o, none)
    else match attached with
      | some value => do return (← give given o value, none)
      | none => .ok (given, some o)

/-- Reads arguments, where `waiting` is an option that still has to get its value. -/
def readArgs (options : List OptionName) (given : Given) (waiting : Option OptionName) :
    List String → Except Stop Given
  | [] => if waiting.isSome then .error .refused else .ok given
  | arg :: rest =>
    match arg.toList with
    | ['-', '-'] => if waiting.isSome || !rest.isEmpty then .error .refused else .ok given
    | '-' :: '-' :: text =>
      if waiting.isSome then .error .refused
      else do
        let (given, waiting) ← readLong options given text
        readArgs options given waiting rest
    | '-' :: c :: text =>
      if waiting.isSome then .error .refused
      else do
        let (given, waiting) ← readShorts options given (c :: text)
        readArgs options given waiting rest
    | _ =>
      match waiting with
      | some o => do readArgs options (← give given o arg) none rest
      | none => .error .refused

/-! ### Commands -/

/-- The options of both commands; the description has to be named. -/
def sharedOptions (given : Given) : Option SharedOptions := do
  return {
    file := ← given.lookup .file
    config := given.lookup .config
    overrides := {
      space := given.lookup .space
      canonicalLead := given.lookup .canonicalLead
      exclude := (given.filter (·.1 == .exclude)).map (·.2) }
    verbose := (given.lookup .verbose).isSome }

def defaultOutputDir : String := "generated"

def commandOf (name : CommandName) (given : Given) : Option Command := do
  let args ← sharedOptions given
  return match name with
    | .codegen => .codegen args ((given.lookup .output).getD defaultOutputDir)
    | .analyze => .analyze args (given.lookup .type) (given.lookup .json).isSome

/-- The command that a line asks for, unless it is refused. -/
def parse : List String → Option Command
  | [] => none
  | arg :: rest =>
    let name? : Option CommandName :=
      if arg = "codegen" then some .codegen else if arg = "analyze" then some .analyze else none
    match name? with
    | some name => match readArgs name.options [] none rest with
      | .ok given => commandOf name given
      | .error .help => some .help
      | .error .refused => none
    | none =>
      if arg = "--help" || arg.toList.take 2 = ['-', 'h'] then some .help
      else if arg = "help" then
        match rest with
        | [] => some .help
        | [topic] => if ["codegen", "analyze", "help"].contains topic then some .help else none
        | _ => none
      else none

end AbiLayout.CommandLine
