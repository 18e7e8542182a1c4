import AbiLayout.Cpp.Declarator
import AbiLayout.Cpp.Error
import AbiLayout.Cpp.Name
import AbiLayout.Description.Types
import AbiLayout.Text.Uppercase

/-!
# Spelling types on either side

A spelling says how one side writes primitives, atomics and named types; pointers and arrays are
threaded through the declarator in one way for all of them. There are three: the generated names, the
generated names as seen inside a record whose members hide some of them, and the names of the
canonical header.
-/

namespace AbiLayout.Cpp

/-- How one side writes the types that take part in no declarator. -/
structure Spelling where
  integral : Integral → String
  atomic : String → String
  named : String → String

/-- A constant target is marked in front of the whole declaration. -/
def qualify (constant : Bool) (text : String) : String :=
  if constant then "const " ++ text else text

/-- A type and what it declares, in one text. -/
def place (leaf : String) (d : Declarator) : String := leaf ++ " " ++ d.text

/-- Nothing can have type void, except what a pointer points to and what has no name. -/
def voidIn (d : Declarator) : Except RenderError String :=
  if d.isPointer || d.text.isEmpty then .ok (place "void" d) else .error (.voidValue d.text)

/-- An array step needs at least one element. -/
def arrayIn (d : Declarator) (count : UInt64) : Except RenderError Declarator :=
  if count = 0 then .error (.zeroLengthArray d.text) else .ok (.array d count)

namespace Spelling

mutual

def spell (s : Spelling) : AbiType → Except RenderError String
  | .void => .ok "void"
  | .int kind => .ok (s.integral kind)
  | .atomic target => do return s.atomic (← s.spell target)
  | .pointer target constant => do
    return qualify constant (← s.spellThrough target (.pointer .nameless))
  | .array element count => do s.spellThrough element (← arrayIn .nameless count)
  | .aliasOf name _ => .ok (s.named name)
  | .intLike body => .ok (s.named body.name)
  | .userDefined name => .ok (s.named name)
  | .record name _ => .ok (s.named name)

def spellThrough (s : Spelling) : AbiType → Declarator → Except RenderError String
  | .void, d => voidIn d
  | .int kind, d => .ok (place (s.integral kind) d)
  | .atomic target, d => do return place (s.atomic (← s.spell target)) d
  | .pointer target constant, d => do return qualify constant (← s.spellThrough target (.pointer d))
  | .array element count, d => do s.spellThrough element (← arrayIn d count)
  | .aliasOf name _, d => .ok (place (s.named name) d)
  | .intLike body, d => .ok (place (s.named body.name) d)
  | .userDefined name, d => .ok (place (s.named name) d)
  | .record name _, d => .ok (place (s.named name) d)

end

def declaration (s : Spelling) (type : AbiType) (name : String) : Except RenderError String :=
  s.spellThrough type (.name name)

end Spelling

def generatedIntegral : Integral → String
  | .char => "char"
  | kind => "std::" ++ kind.name ++ "_t"

def canonicalIntegral : Integral → String
  | .char => "char"
  | kind => kind.name ++ "_t"

def generated : Spelling where
  integral := generatedIntegral
  atomic target := "std::atomic<" ++ target ++ ">"
  named := mangle

/-- The generated names where the identifiers `hidden` mean members: a type of such a name is
reached through the namespace. -/
def insideRecord (space : String) (hidden : List String) : Spelling where
  integral := generatedIntegral
  atomic target := "std::atomic<" ++ target ++ ">"
  named name := if hidden.contains (mangle name) then space ++ "::" ++ mangle name else mangle name

def canonical (lead : String) : Spelling where
  integral := canonicalIntegral
  atomic target := "_Atomic(" ++ target ++ ")"
  named name := lead ++ name ++ "_t"

def generatedValue (value : NamedValue) : String := mangle value.name

/-- What stands between the common lead and the value in a canonical constant. -/
def constantInfix (owner : IntLike) : String :=
  match owner.infixName with
  | some text => Text.uppercase text
  | none => Text.uppercase owner.name ++ "_"

def canonicalValue (lead : String) (owner : IntLike) (value : NamedValue) : String :=
  Text.uppercase lead ++ constantInfix owner ++ Text.uppercase value.name

end AbiLayout.Cpp
