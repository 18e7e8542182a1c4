/-!
# Identifiers

The texts that can be pasted into a name (fragments) and those that are a name on their own
(identifiers). Only ASCII takes part in either.
-/

namespace AbiLayout.Text

/-- Letters, digits and `_`. -/
def isNameChar (c : Char) : Bool := c.isAlphanum || c == '_'

/-- A name that begins with a digit is no identifier. -/
def startsWithDigit (name : String) : Bool :=
  match name.toList with
  | [] => false
  | c :: _ => c.isDigit

/-- At least one character, and all of them identifier characters. -/
def isFragment (name : String) : Bool :=
  !name.toList.isEmpty && name.toList.all isNameChar

def isIdentifier (name : String) : Bool := isFragment name && !startsWithDigit name

end AbiLayout.Text
