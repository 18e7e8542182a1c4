import AbiLayout.Cpp.SharedOffset
import AbiLayout.Cpp.Spelling

/-!
# Reports

How every generated enumeration and record maps onto the canonical layout: the names of both sides, with
the values of an enumeration and the offsets of a record. The names of excluded types are listed apart.
-/

namespace AbiLayout

open Cpp

structure ValueEntry where
  name : String
  generated : String
  canonical : String
  value : UInt64
deriving DecidableEq, Repr

structure EnumEntry where
  name : String
  generated : String
  canonical : String
  intType : Integral
  flags : Bool
  values : List ValueEntry
deriving DecidableEq, Repr

/-- A record with the names of both sides and the offsets that both share. -/
structure RecordEntry where
  name : String
  generated : String
  canonical : String
  offsets : List SharedOffset
deriving DecidableEq, Repr

structure Report where
  abi : String
  excluded : List String
  enums : List EnumEntry
  records : List RecordEntry
deriving DecidableEq, Repr

/-- The number of offsets that the header of records asserts for the reported records. -/
def Report.offsetCount (r : Report) : Nat :=
  r.records.foldr (fun s count => s.offsets.length + count) 0

def valueEntry (lead : String) (owner : IntLike) (v : NamedValue) : ValueEntry :=
  ⟨v.name, generatedValue v, canonicalValue lead owner v, v.value⟩

end AbiLayout
