import AbiLayout.Description.Types

/-!
# Descriptions

A description as it is written down: some words about the interface, and its types in the order of
their declaration.
-/

namespace AbiLayout

structure Interface where
  name : String
  description : Option String
deriving DecidableEq, Repr

structure Description where
  interface : Interface
  types : List AbiType

end AbiLayout
