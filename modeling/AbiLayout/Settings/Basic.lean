import AbiLayout.Description.NameSet

/-!
# Settings of a run

What a run needs besides the model. A configuration document may leave out any setting, which then has
its default; the command line may replace the namespace and the canonical lead and add exclusions.
-/

namespace AbiLayout

structure HeaderFrame where
  fileName : String
  headerGuard : String
  preamble : String
deriving DecidableEq, Repr

structure Settings where
  /-- The namespace around both headers. -/
  space : String
  /-- What canonical names begin with. -/
  canonicalLead : String
  /-- The types that are never generated. -/
  exclude : NameSet
  /-- The view that ranges are declared through. -/
  rangeViewType : String
  /-- The length member of that view, where its offset is to be checked. -/
  rangeLengthMember : Option String
  typesFrame : HeaderFrame
  recordsFrame : HeaderFrame

/-- The header of light declarations, by default. -/
def HeaderFrame.types : HeaderFrame where
  fileName := "cloudabi_types.hpp"
  headerGuard := "CLOUDABI_TYPES_HPP"
  preamble := "#include <cloudabi_types.h>\n"

/-- The header of records, by default. -/
def HeaderFrame.records : HeaderFrame where
  fileName := "cloudabi_structs.hpp"
  headerGuard := "CLOUDABI_STRUCTS_HPP"
  preamble :=
    "#include <atomic>\n" ++
    "#include <cstddef>\n" ++
    "#include <cstdint>\n" ++
    "\n" ++
    "#include <mstd/range.hpp>\n" ++
    "\n" ++
    "#include <cloudabi_types.h>\n" ++
    "\n" ++
    "#include \"cloudabi_types.hpp\"\n" ++
    "#include \"cloudabi_fd.hpp\"\n" ++
    "#include \"cloudabi_iovec.hpp\"\n"

/-- The types that are maintained by hand, because their shape depends on the platform. -/
def handMaintained : List String :=
  ["auxtype", "auxv", "ciovec", "dirent", "fd", "lookup", "iovec", "tcb", "threadattr"]

namespace Settings

/-- The settings of a run that says nothing about them. -/
def standard : Settings where
  space := "cloudabi"
  canonicalLead := "cloudabi_"
  exclude := .ofList handMaintained
  rangeViewType := "mstd::range"
  rangeLengthMember := none
  typesFrame := .types
  recordsFrame := .records

def excludes (s : Settings) (name : String) : Bool := s.exclude.contains name

structure Overrides where
  space : Option String
  canonicalLead : Option String
  exclude : List String
deriving DecidableEq, Repr

def override (s : Settings) (o : Overrides) : Settings :=
  { s with
    space := o.space.getD s.space
    canonicalLead := o.canonicalLead.getD s.canonicalLead
    exclude := s.exclude.insertAll o.exclude }

end Settings

end AbiLayout
