import AbiLayout.Text.Identifier

/-!
# Names on the generated side

A declared name becomes an identifier of the generated code in two steps: characters that no
identifier can hold turn into `_`, and a result that the language does not accept as a name is bent
by a fixed rule. Whatever the declared name was, the outcome is an ASCII identifier that is neither a
reserved word nor the name of a standard facility, and such a name is left alone.
-/

namespace AbiLayout.Cpp

open Text (isNameChar startsWithDigit)

/-- The reserved words, alternative operator spellings included. -/
def keywords : List String :=
  ["alignas", "alignof", "asm", "auto", "bool", "break", "case", "catch", "char", "char16_t",
   "char32_t", "class", "const", "const_cast", "constexpr", "continue", "decltype", "default",
   "delete", "do", "double", "dynamic_cast", "else", "enum", "explicit", "export", "extern",
   "false", "float", "for", "friend", "goto", "if", "inline", "int", "long", "mutable",
   "namespace", "new", "noexcept", "nullptr", "operator", "private", "protected", "public",
   "register", "reinterpret_cast", "return", "short", "signed", "sizeof", "static",
   "static_assert", "static_cast", "struct", "switch", "template", "this", "thread_local",
   "throw", "true", "try", "typedef", "typeid", "typename", "union", "unsigned", "using",
   "virtual", "void", "volatile", "wchar_t", "while",
   "and", "and_eq", "bitand", "bitor", "compl", "not", "not_eq", "or", "or_eq", "xor", "xor_eq"]

def isKeyword (name : String) : Bool := keywords.contains name

/-- Names that would hide a standard facility, with what replaces each. -/
def replacements : List (String × String) := [("errno", "error")]

/-- Every character that no identifier can hold becomes `_`, and so does the empty name. -/
def sanitize (name : String) : String :=
  if name.toList.isEmpty then "_"
  else String.ofList (name.toList.map fun c => if isNameChar c then c else '_')

/-- Bends a name of identifier characters into one that can be declared: the first rule that applies
decides. -/
def escape (name : String) : String :=
  if startsWithDigit name then "_" ++ name
  else if isKeyword name then name ++ "_"
  else (replacements.lookup name).getD name

/-- The identifier that stands for a declared name. -/
def mangle (name : String) : String := escape (sanitize name)

end AbiLayout.Cpp
