import AbiLayout.Report.Basic
import AbiLayout.Text.Quoted

/-!
# Reports as text

The lines of a report for a reader: the enumerations with their values, then the records with their
offsets, and at the end how many of these are asserted.
-/

namespace AbiLayout

open Cpp (SharedOffset OffsetKind)

/-- The line of a value, which shows its number to base 16. -/
def ValueEntry.line (v : ValueEntry) : String :=
  "    " ++ v.generated ++ " = " ++ v.canonical ++ " (0x" ++
    String.ofList (Text.hexDigits v.value.toNat) ++ ")"

/-- The lines of an enumeration. A flags type is shown with its empty set. -/
def EnumEntry.lines (e : EnumEntry) : List String :=
  ["[enum" ++ (if e.flags then " flags" else "") ++ "] " ++ e.name ++ " : " ++ e.intType.name ++
    " (" ++ e.generated ++ " -> " ++ e.canonical ++ ")"] ++
    (if e.flags then ["    none = 0"] else []) ++ e.values.map ValueEntry.line

/-- What is said of an offset that is not of a plain field. -/
def offsetNote : OffsetKind → String
  | .field => ""
  | .rangeBase => "  [range base]"
  | .rangeLength => "  [range length]"

def offsetLine (l : SharedOffset) : String :=
  "    " ++ l.generated ++ " <-> " ++ l.canonical ++ offsetNote l.kind

def RecordEntry.lines (s : RecordEntry) : List String :=
  ("[struct] " ++ s.name ++ " (" ++ s.generated ++ " -> " ++ s.canonical ++ ")") ::
    s.offsets.map offsetLine

def Report.lines (r : Report) : List String :=
  ["ABI C++ Generator - Layout Analysis",
   "===================================",
   "",
   "[~] ABI: " ++ r.abi] ++
    (if r.excluded.isEmpty then []
      else ["[~] Excluded (hand-maintained): " ++ ", ".intercalate r.excluded]) ++
    [""] ++ r.enums.flatMap EnumEntry.lines ++ (if r.enums.isEmpty then [] else [""]) ++
    r.records.flatMap RecordEntry.lines ++
    ["", "[✓] " ++ r.offsetCount.repr ++ " offset assertion(s) across " ++
      r.records.length.repr ++ " record(s)"]

end AbiLayout
