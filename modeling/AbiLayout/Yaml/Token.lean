/-!
# Tokens of YAML

The pieces that a text is made of. The start and the end of block containers are tokens too, though
the text shows them by its indentation alone.
-/

namespace AbiLayout.Yaml

inductive Style where
  | plain
  | quoted
  | literal
  | folded
deriving DecidableEq, Repr

structure ScalarText where
  text : String
  style : Style
deriving DecidableEq, Repr

inductive Token where
  | streamEnd
  | version (major minor : Nat)
  | tagShorthand (handle lead : String)
  | documentStart
  | documentEnd
  | blockSequenceStart
  | blockMappingStart
  | blockEnd
  | flowSequenceStart
  | flowSequenceEnd
  | flowMappingStart
  | flowMappingEnd
  | blockEntry
  | flowEntry
  | key
  | value
  | reference (name : String)
  | anchor (name : String)
  | tag (handle suffix : String)
  | scalar (s : ScalarText)
deriving DecidableEq, Repr

end AbiLayout.Yaml
