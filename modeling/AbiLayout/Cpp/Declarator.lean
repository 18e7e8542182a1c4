/-!
# Declarators

What stands beside the type in a declaration: a name with the pointer and array steps that lead away
from it. Array suffixes bind before pointer marks, so a pointer that is indexed is written in
parentheses; with that, the text determines the steps.
-/

namespace AbiLayout.Cpp

/-- A declared name, or a step away from one. -/
inductive Declarator where
  | name (text : String)
  | pointer (inner : Declarator)
  | array (inner : Declarator) (count : UInt64)
deriving DecidableEq, Repr

namespace Declarator

/-- Whether the outermost step is a pointer. -/
def isPointer : Declarator → Bool
  | pointer _ => true
  | name _ | array _ _ => false

def text : Declarator → String
  | name s => s
  | pointer d => "*" ++ d.text
  | array d n =>
    (if d.isPointer then "(" ++ d.text ++ ")" else d.text) ++ "[" ++ n.toNat.repr ++ "]"

/-- The declarator without a name, as types are written on their own. -/
def nameless : Declarator := name ""

end Declarator

end AbiLayout.Cpp
