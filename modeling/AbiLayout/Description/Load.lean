import AbiLayout.Description.Model
import AbiLayout.Description.Reading
import AbiLayout.Files.Disk
import AbiLayout.Json.Reader
import AbiLayout.Yaml.Reader

/-!
# Loading descriptions

From the text of a description, or from a file whose extension tells the format, to a model.
-/

namespace AbiLayout

open Document (Fault)
open Files (Disk FileError)

inductive FileFormat where
  | json
  | yaml
deriving DecidableEq, Repr

/-- Why no model can be loaded. -/
inductive DescriptionError where
  | unreadable (path : String) (cause : FileError)
  | unsupported (path : String)
  | invalid (format : FileFormat) (fault : Fault)
  | model (cause : ModelError)
deriving DecidableEq, Repr

def FileFormat.name : FileFormat → String
  | json => "JSON"
  | yaml => "YAML"

def FileFormat.ofExtension? (extension : String) : Option FileFormat :=
  if extension = "yaml" || extension = "yml" then some .yaml
  else if extension = "json" then some .json
  else none

def DescriptionError.message : DescriptionError → String
  | unreadable path cause => "failed to read " ++ path ++ ": " ++ cause.message
  | unsupported path =>
    "unsupported ABI description format: " ++ path ++ " (expected .yaml, .yml or .json)"
  | invalid format fault => "invalid " ++ format.name ++ " ABI description: " ++ fault.message
  | model cause => cause.message

/-- The failure and what lies behind it, the outermost first. -/
def DescriptionError.causes : DescriptionError → List String
  | unreadable path cause => [(unreadable path cause).message, cause.message]
  | invalid format fault => [(invalid format fault).message, fault.message]
  | e => [e.message]

def Description.ofText (format : FileFormat) (text : String) : Except DescriptionError Description :=
  (match format with
    | .json => Description.ofDocument Json.format (Json.readDocument text)
    | .yaml => Description.ofDocument Yaml.format (Yaml.readDocument text)).mapError (.invalid format)

def Description.load (disk : Disk) (path : String) : Except DescriptionError Description := do
  let text ← (disk.readText path).mapError (.unreadable path)
  match (Files.extension? path).bind FileFormat.ofExtension? with
  | some format => Description.ofText format text
  | none => throw (.unsupported path)

def Description.model (f : Description) : Except DescriptionError Model :=
  (Model.build f.interface.name f.types).mapError .model

def Model.load (disk : Disk) (path : String) : Except DescriptionError Model := do
  (← Description.load disk path).model

end AbiLayout
