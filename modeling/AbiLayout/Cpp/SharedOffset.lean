import AbiLayout.Cpp.Name
import AbiLayout.Description.Types

/-!
# Shared offsets

Where a field lies inside a record, on both sides at once: a dotted path through the named
alternatives that enclose it. The generated path has every name mangled, the canonical path has the
names as declared. The shared offsets of a member list are those of all fields that hold data.
-/

namespace AbiLayout.Cpp

/-- The part of a path before its last name, on both sides. -/
structure DualPath where
  generatedLead : String
  canonicalLead : String
deriving DecidableEq, Repr

namespace DualPath

def root : DualPath := ⟨"", ""⟩

def into (p : DualPath) (name : String) : DualPath :=
  ⟨p.generatedLead ++ mangle name ++ ".", p.canonicalLead ++ name ++ "."⟩

def generated (p : DualPath) (name : String) : String := p.generatedLead ++ mangle name

def canonical (p : DualPath) (name : String) : String := p.canonicalLead ++ name

end DualPath

/-- What an offset is of: a simple member, the view of a range against its base, or the length of
a view against the length field. -/
inductive OffsetKind where
  | field
  | rangeBase
  | rangeLength
deriving DecidableEq, Repr

def OffsetKind.name : OffsetKind → String
  | field => "field"
  | rangeBase => "range-base"
  | rangeLength => "range-length"

/-- One offset that both sides share. -/
structure SharedOffset where
  generated : String
  canonical : String
  kind : OffsetKind
deriving DecidableEq, Repr

/-- The offsets of a range: its base, and its length where the view's length member is known. -/
def rangeOffsets (path : DualPath) (lengthMember : Option String)
    (name baseName lengthName : String) : List SharedOffset :=
  ⟨path.generated name, path.canonical baseName, .rangeBase⟩ ::
    match lengthMember with
    | none => []
    | some m => [⟨path.generated name ++ "." ++ m, path.canonical lengthName, .rangeLength⟩]

mutual

def memberOffsets (path : DualPath) (lengthMember : Option String) : Member → List SharedOffset
  | .simple name _ => [⟨path.generated name, path.canonical name, .field⟩]
  | .variant alternatives => alternativesOffsets path lengthMember alternatives
  | .range name _ _ baseName lengthName => rangeOffsets path lengthMember name baseName lengthName

/-- The offsets of a member list, in declaration order. -/
def membersOffsets (path : DualPath) (lengthMember : Option String) :
    List Member → List SharedOffset
  | [] => []
  | m :: rest => memberOffsets path lengthMember m ++ membersOffsets path lengthMember rest

/-- The offsets of one alternative: a name extends the path, its absence leaves it. -/
def alternativeOffsets (path : DualPath) (lengthMember : Option String) :
    Alternative → List SharedOffset
  | .mk none members => membersOffsets path lengthMember members
  | .mk (some name) members => membersOffsets (path.into name) lengthMember members

def alternativesOffsets (path : DualPath) (lengthMember : Option String) :
    List Alternative → List SharedOffset
  | [] => []
  | a :: rest => alternativeOffsets path lengthMember a ++ alternativesOffsets path lengthMember rest

end

/-- Every offset that a record of these members has to share with the canonical one. -/
def sharedOffsets (members : List Member) (lengthMember : Option String) : List SharedOffset :=
  membersOffsets .root lengthMember members

end AbiLayout.Cpp
