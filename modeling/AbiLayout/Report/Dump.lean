import AbiLayout.Json.Tree
import AbiLayout.Report.Basic

/-!
# Reports as JSON

The written form of a report: enumerations and records are entries under their names.
-/

namespace AbiLayout

open Json (Tree)
open Json.Tree
open Cpp (SharedOffset)

def offsetDump (l : SharedOffset) : Tree :=
  object [("generated", text l.generated), ("canonical", text l.canonical), ("kind", text l.kind.name)]

def ValueEntry.dump (v : ValueEntry) : Tree :=
  object [("name", text v.name), ("generated", text v.generated), ("canonical", text v.canonical),
    ("value", nat v.value.toNat)]

/-- An enumeration, without its name. -/
def EnumEntry.dump (e : EnumEntry) : Tree :=
  object [("generated", text e.generated), ("canonical", text e.canonical),
    ("int-type", text e.intType.name), ("flags", bool e.flags),
    ("values", array (e.values.map ValueEntry.dump))]

/-- A record, without its name. -/
def RecordEntry.dump (s : RecordEntry) : Tree :=
  object [("generated", text s.generated), ("canonical", text s.canonical),
    ("leaves", array (s.offsets.map offsetDump))]

def Report.dump (r : Report) : Tree :=
  object [("abi", text r.abi), ("excluded", array (r.excluded.map text)),
    ("enums", object (r.enums.map fun e => (e.name, e.dump))),
    ("structs", object (r.records.map fun s => (s.name, s.dump)))]

end AbiLayout
