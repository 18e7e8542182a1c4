import AbiLayout.Description.Shapes

/-!
# Reading descriptions

A description is taken from a document tree of any format. Types and members contain each other, so
they are read together, by recursion on the number of containers that may still be entered.
-/

namespace AbiLayout

open Document

variable {S : Type}

def readIntegral (fmt : Format S) (depth : Nat) (n : Node S) : Reading S Integral :=
  fmt.readChoice integralChoice some
    (match depth with
      | 0 => none
      | _ + 1 => some fun kind _ => return kind) n

def readNamedValue (fmt : Format S) (depth : Nat) (n : Node S) : Reading S NamedValue := do
  let draft ← fmt.readStruct namedValueShape
    (match depth with
      | 0 => none
      | _ + 1 => some fun
        | .name => fmt.readText
        | .value => fmt.readWord) n
  return ⟨← draft.required .name, ← draft.required .value⟩

def readNamedValues (fmt : Format S) (depth : Nat) (n : Node S) : Reading S (List NamedValue) :=
  fmt.readSequence
    (match depth with
      | 0 => none
      | d + 1 => some (readNamedValue fmt d)) n

def readIntLike (fmt : Format S) (depth : Nat) (n : Node S) : Reading S IntLike := do
  let draft ← fmt.readStruct intLikeShape
    (match depth with
      | 0 => none
      | d + 1 => some fun
        | .name => fmt.readText
        | .intType => readIntegral fmt d
        | .flags => fmt.readFlag
        | .infixName => fmt.readOptional fmt.readText
        | .values => readNamedValues fmt d) n
  return ⟨← draft.required .name, ← draft.required .intType, (draft .flags).getD false,
    (draft .infixName).getD none, (draft .values).getD []⟩

mutual

def readType (fmt : Format S) (depth : Nat) (n : Node S) : Reading S AbiType :=
  fmt.readChoice typeChoice TypeForm.bare
    (match depth with
      | 0 => none
      | d + 1 => some fun form content => do match form with
        | .void => return .void
        | .int => return .int (← readIntegral fmt d content)
        | .atomic => return .atomic (← readType fmt d content)
        | .pointer => readPointer fmt d content
        | .array => readArray fmt d content
        | .aliasOf => readAlias fmt d content
        | .intLike => return .intLike (← readIntLike fmt d content)
        | .userDefined => return .userDefined (← fmt.readText content)
        | .record => readRecord fmt d content) n

def readPointer (fmt : Format S) (depth : Nat) (n : Node S) : Reading S AbiType := do
  let draft ← fmt.readStruct pointerShape
    (match depth with
      | 0 => none
      | d + 1 => some fun
        | .target => readType fmt d
        | .constant => fmt.readFlag) n
  return .pointer (← draft.required .target) ((draft .constant).getD false)

def readArray (fmt : Format S) (depth : Nat) (n : Node S) : Reading S AbiType := do
  let draft ← fmt.readStruct arrayShape
    (match depth with
      | 0 => none
      | d + 1 => some fun
        | .element => readType fmt d
        | .count => fmt.readWord) n
  return .array (← draft.required .element) (← draft.required .count)

def readAlias (fmt : Format S) (depth : Nat) (n : Node S) : Reading S AbiType := do
  let draft ← fmt.readStruct aliasShape
    (match depth with
      | 0 => none
      | d + 1 => some fun
        | .name => fmt.readText
        | .underlying => readType fmt d) n
  return .aliasOf (← draft.required .name) (← draft.required .underlying)

def readRecord (fmt : Format S) (depth : Nat) (n : Node S) : Reading S AbiType := do
  let draft ← fmt.readStruct recordShape
    (match depth with
      | 0 => none
      | d + 1 => some fun
        | .name => fmt.readText
        | .members => readMembers fmt d) n
  return .record (← draft.required .name) ((draft .members).getD [])

def readMembers (fmt : Format S) (depth : Nat) (n : Node S) : Reading S (List Member) :=
  fmt.readSequence
    (match depth with
      | 0 => none
      | d + 1 => some (readMember fmt d)) n

def readMember (fmt : Format S) (depth : Nat) (n : Node S) : Reading S Member :=
  fmt.readChoice memberChoice (fun _ => none)
    (match depth with
      | 0 => none
      | d + 1 => some fun form content => match form with
        | .simple => readSimple fmt d content
        | .variant => readVariant fmt d content
        | .range => readRange fmt d content) n

def readSimple (fmt : Format S) (depth : Nat) (n : Node S) : Reading S Member := do
  let draft ← fmt.readStruct simpleShape
    (match depth with
      | 0 => none
      | d + 1 => some fun
        | .name => fmt.readText
        | .type => readType fmt d) n
  return .simple (← draft.required .name) (← draft.required .type)

def readVariant (fmt : Format S) (depth : Nat) (n : Node S) : Reading S Member := do
  let draft ← fmt.readStruct variantShape
    (match depth with
      | 0 => none
      | d + 1 => some fun
        | .alternatives => readAlternatives fmt d) n
  return .variant (← draft.required .alternatives)

def readAlternatives (fmt : Format S) (depth : Nat) (n : Node S) :
    Reading S (List Alternative) :=
  fmt.readSequence
    (match depth with
      | 0 => none
      | d + 1 => some (readAlternative fmt d)) n

def readAlternative (fmt : Format S) (depth : Nat) (n : Node S) : Reading S Alternative := do
  let draft ← fmt.readStruct alternativeShape
    (match depth with
      | 0 => none
      | d + 1 => some fun
        | .name => fmt.readOptional fmt.readText
        | .members => readMembers fmt d) n
  return .mk ((draft .name).getD none) ((draft .members).getD [])

def readRange (fmt : Format S) (depth : Nat) (n : Node S) : Reading S Member := do
  let draft ← fmt.readStruct rangeShape
    (match depth with
      | 0 => none
      | d + 1 => some fun
        | .name => fmt.readText
        | .target => readType fmt d
        | .constant => fmt.readFlag
        | .baseName => fmt.readOptional fmt.readText
        | .lengthName => fmt.readOptional fmt.readText) n
  return .rangeOf (← draft.required .name) (← draft.required .target)
    ((draft .constant).getD false) ((draft .baseName).getD none) ((draft .lengthName).getD none)

end

def readTypes (fmt : Format S) (depth : Nat) (n : Node S) : Reading S (List AbiType) :=
  fmt.readSequence
    (match depth with
      | 0 => none
      | d + 1 => some (readType fmt d)) n

def readInterface (fmt : Format S) (depth : Nat) (n : Node S) : Reading S Interface := do
  let draft ← fmt.readStruct interfaceShape
    (match depth with
      | 0 => none
      | _ + 1 => some fun
        | .name => fmt.readText
        | .description => fmt.readOptional fmt.readText) n
  return ⟨← draft.required .name, (draft .description).getD none⟩

/-- Reads a description, entering at most `depth` containers inside each other. -/
def readDescription (fmt : Format S) (depth : Nat) (n : Node S) : Reading S Description := do
  let draft ← fmt.readStruct descriptionShape
    (match depth with
      | 0 => none
      | d + 1 => some fun
        | .interface => readInterface fmt d
        | .types => readTypes fmt d) n
  return ⟨← draft.required .interface, (draft .types).getD []⟩

def Description.ofDocument (fmt : Format S) (doc : Parsed S) : Except Fault Description :=
  doc.read (readDescription fmt fmt.limit)

end AbiLayout
