import AbiLayout.Cpp.SharedOffset
import AbiLayout.Cpp.Outline

/-!
# Declarations at namespace scope

The two texts that a described type can have: a light declaration (an alias, an enumeration with the
operators of a flags type, or a record that is only announced), and for a record its definition,
which is followed by the assertions that tie its layout to the canonical one.
-/

namespace AbiLayout.Cpp

/-! ### Enumerations -/

/-- One line of an enumeration: a name bound to a constant. -/
structure Enumerator where
  name : String
  constant : String
deriving DecidableEq, Repr

structure Enumeration where
  name : String
  underlying : String
  flags : Bool
  enumerators : List Enumerator
deriving DecidableEq, Repr

/-- The enumerator that stands for no bits set. -/
def noneName : String := "none"

def declaredEnumerators (lead : String) (e : IntLike) : List Enumerator :=
  e.values.map fun v => ⟨generatedValue v, canonicalValue lead e v⟩

/-- Whether a flags type needs a `none` of its own: it does unless a declared zero takes that name.
A declared `none` that is not zero is a clash. -/
def needsNone (e : IntLike) : Except RenderError Bool :=
  if e.flags then
    match e.values.find? fun v => generatedValue v == noneName with
    | none => .ok true
    | some v =>
      if v.value = 0 then .ok false else .error (.duplicateIdentifier (mangle e.name) noneName)
  else .ok false

def enumerationFault (e : IntLike) : Option RenderError :=
  (firstRepeat (e.values.map generatedValue)).map (.duplicateIdentifier (mangle e.name))

def enumeration (lead : String) (e : IntLike) : Except RenderError Enumeration := do
  match enumerationFault e with
  | some fault => throw fault
  | none =>
    let synthesized := if ← needsNone e then [Enumerator.mk noneName "0"] else []
    return ⟨mangle e.name, (canonical lead).named e.name, e.flags,
      synthesized ++ declaredEnumerators lead e⟩

def pad (width : Nat) (name : String) : String :=
  name ++ String.ofList (List.replicate (width - name.length) ' ')

def valueWidth (e : IntLike) : Nat :=
  (e.values.map fun v => (generatedValue v).length).foldl max 0

def Enumerator.line (width : Nat) (e : Enumerator) : String :=
  "  " ++ pad width e.name ++ " = " ++ e.constant ++ ","

/-- The lines of an enumeration, with the signs of equality at one width. -/
def Enumeration.lines (width : Nat) (e : Enumeration) : List String :=
  let head := "enum class " ++ e.name ++ " : " ++ e.underlying ++ " \x7b"
  if e.enumerators.isEmpty then [head ++ "\x7d;", ""]
  else head :: e.enumerators.map (·.line width) ++ ["\x7d;", ""]

def binaryOperator (name underlying op : String) : List String :=
  ["inline " ++ name ++ " operator " ++ op ++ " (" ++ name ++ " a, " ++ name ++ " b) \x7b",
   "  return " ++ name ++ "(" ++ underlying ++ "(a) " ++ op ++ " " ++ underlying ++ "(b));",
   "\x7d", ""]

def complementOperator (name underlying : String) : List String :=
  ["inline " ++ name ++ " operator ~ (" ++ name ++ " v) \x7b",
   "  return " ++ name ++ "(~" ++ underlying ++ "(v));",
   "\x7d", ""]

/-- The operators of a flags type, all through the canonical integer. -/
def Enumeration.operators (e : Enumeration) : List String :=
  if e.flags then
    binaryOperator e.name e.underlying "|" ++ binaryOperator e.name e.underlying "&" ++
      complementOperator e.name e.underlying
  else []

/-! ### Light declarations -/

/-- The light declaration of a type; types without one of their own write nothing. -/
def declareType (lead : String) : AbiType → Emission Unit
  | .aliasOf name _ =>
    .block ["using " ++ mangle name ++ " = " ++ (canonical lead).named name ++ ";", ""]
  | .intLike body => do
    let e ← Emission.lift (enumeration lead body)
    .block (e.lines (valueWidth body) ++ e.operators)
  | .record name _ => .block ["struct " ++ mangle name ++ ";", ""]
  | .void | .int _ | .atomic _ | .pointer _ _ | .array _ _ | .userDefined _ => .value ()

/-! ### Record definitions -/

def equalityAssertion (left right : String) : String :=
  "static_assert(" ++ left ++ " == " ++ right ++ ", \"\");"

def offsetAssertion (name cname : String) (o : SharedOffset) : String :=
  equalityAssertion ("offsetof(" ++ name ++ ", " ++ o.generated ++ ")")
    ("offsetof(" ++ cname ++ ", " ++ o.canonical ++ ")")

/-- Writes the assertions of a layout: size, alignment, then every shared offset. The result is the
number of offsets. -/
def assertLayout (name cname : String) (members : List Member) (lengthMember : Option String) :
    Emission Nat := do
  .block [equalityAssertion ("sizeof(" ++ name ++ ")") ("sizeof(" ++ cname ++ ")"),
    equalityAssertion ("alignof(" ++ name ++ ")") ("alignof(" ++ cname ++ ")")]
  .block ((sharedOffsets members lengthMember).map (offsetAssertion name cname))
  return (sharedOffsets members lengthMember).length

/-- Writes the definition of a record and its assertions; the result is the number of offsets
asserted. -/
def defineRecord (s : RecordSettings) (lead : String) (r : Record) : Emission Nat := do
  .line ("struct " ++ mangle r.name ++ " \x7b")
  .check (scopeFault (mangle r.name) r.members)
  Outline.emitAll 1 (outlineRecord s r)
  .line "\x7d;"
  let count ← assertLayout (mangle r.name) ((canonical lead).named r.name) r.members
    s.rangeLengthMember
  .line ""
  return count

end AbiLayout.Cpp
