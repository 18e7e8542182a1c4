import AbiLayout.Cpp.Declaration
import AbiLayout.Description.Model
import AbiLayout.Settings.Basic

/-!
# Headers

The two headers of a run: a header with the light declarations of the included types, and a header
with the definitions of the included records. Each is a head, the pieces of its types in the order of
the model, and a foot.
-/

namespace AbiLayout.Cpp

structure Header where
  fileName : String
  contents : String
deriving DecidableEq, Repr

/-- Both headers of a run, with the number of offsets asserted. -/
structure Headers where
  types : Header
  records : Header
  offsetCount : Nat
deriving DecidableEq, Repr

/-- The types of a model that are generated, in order. -/
def includedTypes (s : Settings) (m : Model) : List AbiType :=
  m.types.filter fun t => !(t.name?.any s.excludes)

def includedRecords (s : Settings) (m : Model) : List Record :=
  (includedTypes s m).filterMap AbiType.record?

def headerHead (abi space : String) (a : HeaderFrame) : List String :=
  ["// Generated from the " ++ abi ++ " ABI description. Do not edit.", "",
   "#ifndef " ++ a.headerGuard, "#define " ++ a.headerGuard, ""] ++
    (if a.preamble.isEmpty then [] else [a.preamble]) ++
    ["namespace " ++ space ++ " \x7b", ""]

def headerFoot (a : HeaderFrame) : List String :=
  ["\x7d", "", "#endif // " ++ a.headerGuard]

def recordSettings (s : Settings) : RecordSettings :=
  ⟨s.space, s.rangeViewType, s.rangeLengthMember⟩

def declareTypes (lead : String) : List AbiType → Emission Unit
  | [] => .value ()
  | t :: rest => do
    declareType lead t
    declareTypes lead rest

/-- Writes the definitions of a list of records; the result is the number of offsets asserted. -/
def defineRecords (s : RecordSettings) (lead : String) : List Record → Emission Nat
  | [] => .value 0
  | r :: rest => do
    let first ← defineRecord s lead r
    let others ← defineRecords s lead rest
    return first + others

def typesHeader (s : Settings) (m : Model) : Emission Unit := do
  .block (headerHead m.name s.space s.typesFrame)
  declareTypes s.canonicalLead (includedTypes s m)
  .block (headerFoot s.typesFrame)

def recordsHeader (s : Settings) (m : Model) : Emission Nat := do
  .block (headerHead m.name s.space s.recordsFrame)
  let count ← defineRecords (recordSettings s) s.canonicalLead (includedRecords s m)
  .block (headerFoot s.recordsFrame)
  return count

def renderTypes (s : Settings) (m : Model) : Except RenderError Header :=
  (typesHeader s m).result.map fun _ => ⟨s.typesFrame.fileName, (typesHeader s m).text⟩

def renderRecords (s : Settings) (m : Model) : Except RenderError (Header × Nat) :=
  (recordsHeader s m).result.map fun count =>
    (⟨s.recordsFrame.fileName, (recordsHeader s m).text⟩, count)

/-- Both headers of a model, or the first fault met in rendering them. -/
def renderHeaders (s : Settings) (m : Model) : Except RenderError Headers := do
  let types ← renderTypes s m
  let (records, count) ← renderRecords s m
  return ⟨types, records, count⟩

end AbiLayout.Cpp
