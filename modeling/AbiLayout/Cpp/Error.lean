/-!
# Why nothing can be declared

The three ways in which a type or a record has no declaration, and what is reported for each.
-/

namespace AbiLayout

/-- A fault of the described types that only shows when they are declared. -/
inductive RenderError where
  | voidValue (name : String)
  | zeroLengthArray (name : String)
  | duplicateIdentifier (scope name : String)
deriving DecidableEq, Repr

def RenderError.message : RenderError → String
  | .voidValue name => "cannot declare '" ++ name ++ "' with type void"
  | .zeroLengthArray name => "array '" ++ name ++ "' must have at least one element"
  | .duplicateIdentifier scope name =>
    "'" ++ name ++ "' is declared more than once in '" ++ scope ++ "' after mangling"

end AbiLayout
