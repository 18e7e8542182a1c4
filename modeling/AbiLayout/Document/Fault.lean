import AbiLayout.Text.Quoted

/-!
# Why a document is refused

A text that is not a document of its format is malformed. A document that is one can still hold
something else than what is expected in its place; that is a mismatch, and it has a sentence of its own.
-/

namespace AbiLayout.Document

inductive Found where
  /-- The null of a format, which calls it by a word of its own. -/
  | nothing (word : String)
  | boolean (b : Bool)
  | integer (n : Int)
  /-- An integer beyond the machine's words, with the kind of number that holds it. -/
  | wideInteger (n : Int) (kind : String)
  | real (digits : String)
  | text (s : String)
  | mapping
  | sequence
  /-- A bare name where a choice is expected. -/
  | bareChoice
  | tagged
deriving DecidableEq, Repr

def Found.words : Found → String
  | .nothing word => word
  | .boolean b => "boolean `" ++ (if b then "true" else "false") ++ "`"
  | .integer n => "integer `" ++ n.repr ++ "`"
  | .wideInteger n kind => "integer `" ++ n.repr ++ "` as " ++ kind
  | .real digits => "floating point `" ++ digits ++ "`"
  | .text s => "string " ++ Text.quoted s
  | .mapping => "map"
  | .sequence => "sequence"
  | .bareChoice => "unit variant"
  | .tagged => "enum"

inductive Expected where
  | text
  | boolean
  | word
  | nothing
  | integer
  | real
  | sequence
  | struct (name : String)
  | structOfSize (name : String) (size : Nat)
  | choice (name : String)
  | fieldName
  | choiceName
  | bareChoice
  | choiceWithContent
  | singleEntry
deriving DecidableEq, Repr

def Expected.words : Expected → String
  | .text => "a string"
  | .boolean => "a boolean"
  | .word => "u64"
  | .nothing => "null"
  | .integer => "an integer"
  | .real => "a float"
  | .sequence => "a sequence"
  | .struct name => "struct " ++ name
  | .structOfSize name size =>
    "struct " ++ name ++ " with " ++ size.repr ++ (if size = 1 then " element" else " elements")
  | .choice name => "enum " ++ name
  | .fieldName => "field identifier"
  | .choiceName => "variant identifier"
  | .bareChoice => "unit variant"
  | .choiceWithContent => "newtype variant"
  | .singleEntry => "map with a single key"

/-- How a document differs from what is expected. -/
inductive Mismatch where
  | invalidType (found : Found) (expected : Expected)
  | invalidValue (found : Found) (expected : Expected)
  | invalidLength (length : Nat) (expected : Expected)
  | unknownChoice (name : String) (choices : List String)
  | missingField (name : String)
  | duplicateField (name : String)
deriving DecidableEq, Repr

def listed (names : List String) : String :=
  ", ".intercalate (names.map fun n => "`" ++ n ++ "`")

def choicesWords : List String → String
  | [] => "there are no variants"
  | [a] => "expected `" ++ a ++ "`"
  | [a, b] => "expected `" ++ a ++ "` or `" ++ b ++ "`"
  | names => "expected one of " ++ listed names

def Mismatch.message : Mismatch → String
  | .invalidType found expected => "invalid type: " ++ found.words ++ ", expected " ++ expected.words
  | .invalidValue found expected =>
    "invalid value: " ++ found.words ++ ", expected " ++ expected.words
  | .invalidLength length expected =>
    "invalid length " ++ length.repr ++ ", expected " ++ expected.words
  | .unknownChoice name choices => "unknown variant `" ++ name ++ "`, " ++ choicesWords choices
  | .missingField name => "missing field `" ++ name ++ "`"
  | .duplicateField name => "duplicate field `" ++ name ++ "`"

inductive Fault where
  | malformed
  | mismatch (m : Mismatch)
deriving DecidableEq, Repr

def Fault.message : Fault → String
  | .malformed => "malformed text"
  | .mismatch m => m.message

def Fault.type (found : Found) (expected : Expected) : Fault :=
  .mismatch (.invalidType found expected)

end AbiLayout.Document
