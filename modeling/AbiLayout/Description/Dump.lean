import AbiLayout.Description.File
import AbiLayout.Json.Tree

/-!
# Descriptions as JSON

The full written form of a description: every field is present, the ones with a default as well. What
is written in this way reads back as the same description.
-/

namespace AbiLayout

open Json (Tree)
open Json.Tree

/-- An alternative of a choice, with its content. -/
def tagged (key : String) (content : Tree) : Tree := object [(key, content)]

def NamedValue.dump (v : NamedValue) : Tree :=
  object [("name", text v.name), ("value", nat v.value.toNat)]

def IntLike.dump (e : IntLike) : Tree :=
  object [("name", text e.name), ("int-type", text e.intType.name), ("flags", bool e.flags),
    ("cprefix", optional e.infixName), ("values", array (e.values.map NamedValue.dump))]

def rangeDump (name : String) (target : Tree) (constant : Bool) (baseName lengthName : String) :
    Tree :=
  object [("name", text name), ("target", target), ("const", bool constant),
    ("base-name", text baseName), ("length-name", text lengthName)]

mutual

def AbiType.dump : AbiType → Tree
  | .void => text "void"
  | .int kind => tagged "int" (text kind.name)
  | .atomic target => tagged "atomic" target.dump
  | .pointer target constant =>
    tagged "pointer" (object [("target", target.dump), ("const", bool constant)])
  | .array element count =>
    tagged "array" (object [("element", element.dump), ("count", nat count.toNat)])
  | .aliasOf name underlying =>
    tagged "alias" (object [("name", text name), ("underlying", underlying.dump)])
  | .intLike body => tagged "int-like" body.dump
  | .userDefined name => tagged "user-defined" (text name)
  | .record name members =>
    tagged "struct" (object [("name", text name), ("members", array (membersDump members))])

def Member.dump : Member → Tree
  | .simple name type => tagged "simple" (object [("name", text name), ("type", type.dump)])
  | .variant alternatives =>
    tagged "variant" (object [("alternatives", array (alternativesDump alternatives))])
  | .range name target constant baseName lengthName =>
    tagged "range" (rangeDump name target.dump constant baseName lengthName)

def Alternative.dump : Alternative → Tree
  | .mk name members => object [("name", optional name), ("members", array (membersDump members))]

def membersDump : List Member → List Tree
  | [] => []
  | m :: rest => m.dump :: membersDump rest

def alternativesDump : List Alternative → List Tree
  | [] => []
  | a :: rest => a.dump :: alternativesDump rest

end

def Interface.dump (m : Interface) : Tree :=
  object [("name", text m.name), ("description", optional m.description)]

def Description.dump (f : Description) : Tree :=
  object [("abi", f.interface.dump), ("types", array (f.types.map AbiType.dump))]

end AbiLayout
