import AbiLayout.Document.Reading
import AbiLayout.Yaml.Token
import AbiLayout.Yaml.Value

/-!
# YAML trees

The scalars of YAML, and what each is taken for. Any scalar is a text where a text is expected. By
itself, the spelling of a plain scalar decides what it is, unless a tag says what it has to be.
-/

namespace AbiLayout.Yaml

open Document

inductive Tag where
  | null
  | boolean
  | integer
  | real
  /-- A tag of the document's own. -/
  | own
  | other
deriving DecidableEq, Repr

def commonLead : String := "tag:yaml.org,2002:"

def Tag.ofText (text : String) : Tag :=
  if text = commonLead ++ "null" then .null
  else if text = commonLead ++ "bool" then .boolean
  else if text = commonLead ++ "int" then .integer
  else if text = commonLead ++ "float" then .real
  else if text.toList.head? == some '!' then .own
  else .other

/-- A scalar with its style and what its tag says, if it has one. -/
structure Scalar where
  text : String
  style : Style
  tag : Option Tag
deriving DecidableEq, Repr

abbrev Tree : Type := Node Scalar

namespace Scalar

def isPlain (s : Scalar) : Bool := s.style = .plain

/-- What a scalar has to be for its tag, if it is that. -/
def required (s : Scalar) (expected : Expected) (found? : Option Found) : Except Fault Found :=
  match found? with
  | some found => .ok found
  | none => .error (.mismatch (.invalidValue (.text s.text) expected))

def found (s : Scalar) : Except Fault Found :=
  match s.tag with
  | none | some .own => .ok (if s.isPlain then plainValue s.text else .text s.text)
  | some .other => .ok (.text s.text)
  | some .null =>
    s.required .nothing (if isNullWord s.text then some (.nothing "unit value") else none)
  | some .boolean => s.required .boolean ((truth? s.text).map .boolean)
  | some .integer => s.required .integer (integer? s.text.toList)
  | some .real => s.required .real (real? s.text)

/-- Whether the spelling of a scalar may count where a tag is expected: it is plain, or literal with that
tag. -/
def isSpelled (s : Scalar) (tag : Tag) : Bool :=
  s.isPlain || (s.style = .literal && s.tag = some tag)

def flag? (s : Scalar) : Option Bool := if s.isSpelled .boolean then truth? s.text else none

def word? (s : Scalar) : Option UInt64 := if s.isSpelled .integer then Yaml.word? s.text else none

/-- Whether a scalar of YAML is null where a value may be left out. -/
def isNothing (s : Scalar) : Except Fault Bool :=
  if s.isPlain then
    match s.tag with
    | none => .ok (isNull s.text)
    | some .null => s.found.map fun _ => true
    | some _ => .ok false
  else .ok false

/-- A plain scalar without text stands for a container without entries. -/
def isHollow (s : Scalar) : Bool := s.isPlain && s.text.isEmpty

end Scalar

def format : Format Scalar where
  found := Scalar.found
  text? s := some s.text
  flag? := Scalar.flag?
  word? := Scalar.word?
  wrongInteger n := .type (.integer n) .word
  isNothing := Scalar.isNothing
  isTagged s := s.tag = some .own
  isHollow := Scalar.isHollow
  structAsSequence := false
  limit := 128

end AbiLayout.Yaml
