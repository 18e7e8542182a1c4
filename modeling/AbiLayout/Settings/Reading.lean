import AbiLayout.Document.Reading
import AbiLayout.Settings.Basic

/-!
# Reading settings

A configuration document may leave out any of its settings, which then keep their defaults. The frame of
a header is given as a whole: inside it only the preamble may be left out, and is then empty.
-/

namespace AbiLayout

open Document

inductive FrameField where
  | fileName
  | headerGuard
  | preamble
deriving DecidableEq, Repr

abbrev frameShape : Shape where
  name := "ArtifactConfig"
  Field := FrameField
  Value _ := String
  fields := [.fileName, .headerGuard, .preamble]
  key
    | .fileName => "file-name"
    | .headerGuard => "header-guard"
    | .preamble => "preamble"
  isRequired
    | .fileName | .headerGuard => true
    | .preamble => false

inductive SettingsField where
  | space
  | canonicalLead
  | exclude
  | rangeViewType
  | rangeLengthMember
  | typesFrame
  | recordsFrame
deriving DecidableEq, Repr

abbrev settingsShape : Shape where
  name := "GeneratorConfig"
  Field := SettingsField
  Value
    | .space => String
    | .canonicalLead => String
    | .exclude => NameSet
    | .rangeViewType => String
    | .rangeLengthMember => Option String
    | .typesFrame => HeaderFrame
    | .recordsFrame => HeaderFrame
  fields := [.space, .canonicalLead, .exclude, .rangeViewType, .rangeLengthMember, .typesFrame,
    .recordsFrame]
  key
    | .space => "namespace"
    | .canonicalLead => "canonical-prefix"
    | .exclude => "exclude"
    | .rangeViewType => "range-view-type"
    | .rangeLengthMember => "range-length-member"
    | .typesFrame => "types-artifact"
    | .recordsFrame => "structs-artifact"
  isRequired _ := false

variable {S : Type}

def readFrame (fmt : Format S) (depth : Nat) (n : Node S) : Reading S HeaderFrame := do
  let draft ← fmt.readStruct frameShape
    (match depth with
      | 0 => none
      | _ + 1 => some fun _ => fmt.readText) n
  return ⟨← draft.required .fileName, ← draft.required .headerGuard, (draft .preamble).getD ""⟩

def readNames (fmt : Format S) (depth : Nat) (n : Node S) : Reading S NameSet := do
  let names ← fmt.readSequence
    (match depth with
      | 0 => none
      | _ + 1 => some fmt.readText) n
  return .ofList names

/-- The settings of a configuration that gives only some of them. -/
def Settings.ofDraft (draft : settingsShape.Draft) : Settings where
  space := (draft .space).getD Settings.standard.space
  canonicalLead := (draft .canonicalLead).getD Settings.standard.canonicalLead
  exclude := (draft .exclude).getD Settings.standard.exclude
  rangeViewType := (draft .rangeViewType).getD Settings.standard.rangeViewType
  rangeLengthMember := (draft .rangeLengthMember).getD Settings.standard.rangeLengthMember
  typesFrame := (draft .typesFrame).getD Settings.standard.typesFrame
  recordsFrame := (draft .recordsFrame).getD Settings.standard.recordsFrame

/-- Reads settings, entering at most `depth` containers inside each other. -/
def readSettings (fmt : Format S) (depth : Nat) (n : Node S) : Reading S Settings := do
  let draft ← fmt.readStruct settingsShape
    (match depth with
      | 0 => none
      | d + 1 => some fun
        | .space => fmt.readText
        | .canonicalLead => fmt.readText
        | .exclude => readNames fmt d
        | .rangeViewType => fmt.readText
        | .rangeLengthMember => fmt.readOptional fmt.readText
        | .typesFrame => readFrame fmt d
        | .recordsFrame => readFrame fmt d) n
  return .ofDraft draft

def Settings.ofDocument (fmt : Format S) (doc : Parsed S) : Except Fault Settings :=
  doc.read (readSettings fmt fmt.limit)

end AbiLayout
