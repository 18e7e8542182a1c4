import AbiLayout.Description.File
import AbiLayout.Document.Reading

/-!
# The written form of descriptions

The structs and choices that a description is written with: their names, their keys, and which fields
may be left out.
-/

namespace AbiLayout

open Document (Shape Choice)

/-! ### Choices -/

def integralChoice : Choice Integral where
  name := "IntegralType"
  all := Integral.all
  key := Integral.name

inductive TypeForm where
  | void
  | int
  | atomic
  | pointer
  | array
  | aliasOf
  | intLike
  | userDefined
  | record
deriving DecidableEq, Repr

def TypeForm.key : TypeForm → String
  | .void => "void"
  | .int => "int"
  | .atomic => "atomic"
  | .pointer => "pointer"
  | .array => "array"
  | .aliasOf => "alias"
  | .intLike => "int-like"
  | .userDefined => "user-defined"
  | .record => "struct"

/-- The type of a form without content. -/
def TypeForm.bare : TypeForm → Option AbiType
  | .void => some .void
  | _ => none

def typeChoice : Choice TypeForm where
  name := "Type"
  all := [.void, .int, .atomic, .pointer, .array, .aliasOf, .intLike, .userDefined, .record]
  key := TypeForm.key

inductive MemberForm where
  | simple
  | variant
  | range
deriving DecidableEq, Repr

def MemberForm.key : MemberForm → String
  | .simple => "simple"
  | .variant => "variant"
  | .range => "range"

def memberChoice : Choice MemberForm where
  name := "StructMember"
  all := [.simple, .variant, .range]
  key := MemberForm.key

/-! ### Structs -/

inductive DescriptionField where
  | interface
  | types
deriving DecidableEq, Repr

abbrev descriptionShape : Shape where
  name := "AbiFile"
  Field := DescriptionField
  Value
    | .interface => Interface
    | .types => List AbiType
  fields := [.interface, .types]
  key
    | .interface => "abi"
    | .types => "types"
  isRequired
    | .interface => true
    | .types => false

inductive InterfaceField where
  | name
  | description
deriving DecidableEq, Repr

abbrev interfaceShape : Shape where
  name := "AbiMetadata"
  Field := InterfaceField
  Value
    | .name => String
    | .description => Option String
  fields := [.name, .description]
  key
    | .name => "name"
    | .description => "description"
  isRequired
    | .name => true
    | .description => false

inductive PointerField where
  | target
  | constant
deriving DecidableEq, Repr

abbrev pointerShape : Shape where
  name := "PointerType"
  Field := PointerField
  Value
    | .target => AbiType
    | .constant => Bool
  fields := [.target, .constant]
  key
    | .target => "target"
    | .constant => "const"
  isRequired
    | .target => true
    | .constant => false

inductive ArrayField where
  | element
  | count
deriving DecidableEq, Repr

abbrev arrayShape : Shape where
  name := "ArrayType"
  Field := ArrayField
  Value
    | .element => AbiType
    | .count => UInt64
  fields := [.element, .count]
  key
    | .element => "element"
    | .count => "count"
  isRequired _ := true

inductive AliasField where
  | name
  | underlying
deriving DecidableEq, Repr

abbrev aliasShape : Shape where
  name := "AliasType"
  Field := AliasField
  Value
    | .name => String
    | .underlying => AbiType
  fields := [.name, .underlying]
  key
    | .name => "name"
    | .underlying => "underlying"
  isRequired _ := true

inductive NamedValueField where
  | name
  | value
deriving DecidableEq, Repr

abbrev namedValueShape : Shape where
  name := "EnumValue"
  Field := NamedValueField
  Value
    | .name => String
    | .value => UInt64
  fields := [.name, .value]
  key
    | .name => "name"
    | .value => "value"
  isRequired _ := true

inductive IntLikeField where
  | name
  | intType
  | flags
  | infixName
  | values
deriving DecidableEq, Repr

abbrev intLikeShape : Shape where
  name := "IntLikeType"
  Field := IntLikeField
  Value
    | .name => String
    | .intType => Integral
    | .flags => Bool
    | .infixName => Option String
    | .values => List NamedValue
  fields := [.name, .intType, .flags, .infixName, .values]
  key
    | .name => "name"
    | .intType => "int-type"
    | .flags => "flags"
    | .infixName => "cprefix"
    | .values => "values"
  isRequired
    | .name | .intType => true
    | .flags | .infixName | .values => false

inductive RecordField where
  | name
  | members
deriving DecidableEq, Repr

abbrev recordShape : Shape where
  name := "StructType"
  Field := RecordField
  Value
    | .name => String
    | .members => List Member
  fields := [.name, .members]
  key
    | .name => "name"
    | .members => "members"
  isRequired
    | .name => true
    | .members => false

inductive SimpleField where
  | name
  | type
deriving DecidableEq, Repr

abbrev simpleShape : Shape where
  name := "SimpleMember"
  Field := SimpleField
  Value
    | .name => String
    | .type => AbiType
  fields := [.name, .type]
  key
    | .name => "name"
    | .type => "type"
  isRequired _ := true

inductive VariantField where
  | alternatives
deriving DecidableEq, Repr

abbrev variantShape : Shape where
  name := "VariantMember"
  Field := VariantField
  Value _ := List Alternative
  fields := [.alternatives]
  key _ := "alternatives"
  isRequired _ := true

inductive AlternativeField where
  | name
  | members
deriving DecidableEq, Repr

abbrev alternativeShape : Shape where
  name := "VariantAlternative"
  Field := AlternativeField
  Value
    | .name => Option String
    | .members => List Member
  fields := [.name, .members]
  key
    | .name => "name"
    | .members => "members"
  isRequired _ := false

inductive RangeField where
  | name
  | target
  | constant
  | baseName
  | lengthName
deriving DecidableEq, Repr

abbrev rangeShape : Shape where
  name := "RangeMemberSpec"
  Field := RangeField
  Value
    | .name => String
    | .target => AbiType
    | .constant => Bool
    | .baseName => Option String
    | .lengthName => Option String
  fields := [.name, .target, .constant, .baseName, .lengthName]
  key
    | .name => "name"
    | .target => "target"
    | .constant => "const"
    | .baseName => "base-name"
    | .lengthName => "length-name"
  isRequired
    | .name | .target => true
    | .constant | .baseName | .lengthName => false

end AbiLayout
