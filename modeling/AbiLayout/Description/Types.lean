import AbiLayout.Description.Integral

/-!
# Types of an interface

A description declares aliases, enumerations and records over a small algebra of types. Records hold
simple members, variants whose alternatives are either hoisted (anonymous) or nested (named), and
ranges, which the canonical layout stores as two fields, a base and a length.
-/

namespace AbiLayout

structure NamedValue where
  name : String
  value : UInt64
deriving DecidableEq, Repr

/-- An enumeration or, when `flags` is set, a set of independent bits. `infixName` replaces the
enumeration's own name inside the canonical constants. -/
structure IntLike where
  name : String
  intType : Integral
  flags : Bool
  infixName : Option String
  values : List NamedValue
deriving DecidableEq, Repr

/-- The first value of a given name. -/
def IntLike.value? (e : IntLike) (name : String) : Option NamedValue :=
  e.values.find? fun v => v.name == name

mutual

/-- A type of the interface. -/
inductive AbiType where
  | void
  | int (kind : Integral)
  | atomic (target : AbiType)
  | pointer (target : AbiType) (constant : Bool)
  | array (element : AbiType) (count : UInt64)
  | aliasOf (name : String) (underlying : AbiType)
  | intLike (body : IntLike)
  | userDefined (name : String)
  | record (name : String) (members : List Member)

/-- A member of a record. A range stores two canonical fields, `baseName` and `lengthName`. -/
inductive Member where
  | simple (name : String) (type : AbiType)
  | variant (alternatives : List Alternative)
  | range (name : String) (target : AbiType) (constant : Bool) (baseName lengthName : String)

/-- One alternative of a variant; without a name its members belong to the enclosing scope. -/
inductive Alternative where
  | mk (name : Option String) (members : List Member)

end

/-- A record on its own: its name and its members. -/
structure Record where
  name : String
  members : List Member

namespace AbiType

/-- The name a type carries: primitives and types built from other types have none. -/
def name? : AbiType → Option String
  | .aliasOf name _ => some name
  | .intLike body => some body.name
  | .userDefined name => some name
  | .record name _ => some name
  | .void | .int _ | .atomic _ | .pointer _ _ | .array _ _ => none

def record? : AbiType → Option Record
  | .record name members => some ⟨name, members⟩
  | _ => none

def intLike? : AbiType → Option IntLike
  | .intLike body => some body
  | _ => none

end AbiType

def Record.type (r : Record) : AbiType := .record r.name r.members

namespace Member

/-- The name a member declares in its record; a variant declares none of its own. -/
def name? : Member → Option String
  | .simple name _ => some name
  | .variant _ => none
  | .range name _ _ _ _ => some name

/-- The canonical length field of a range that does not name one. -/
def defaultLengthName (name : String) : String := name ++ "_len"

/-- A range whose canonical fields are named where given, and otherwise after the range itself. -/
def rangeOf (name : String) (target : AbiType) (constant : Bool)
    (baseName lengthName : Option String) : Member :=
  .range name target constant (baseName.getD name) (lengthName.getD (defaultLengthName name))

end Member

end AbiLayout
