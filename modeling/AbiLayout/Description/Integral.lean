/-!
# Integer kinds

The fixed-width integers that a description can name. A kind is known by its declared name, and the
names are pairwise different, so reading a name back gives the kind it was taken from.
-/

namespace AbiLayout

inductive Integral where
  | char
  | int8
  | int16
  | int32
  | int64
  | uint8
  | uint16
  | uint32
  | uint64
  | size
  | uintptr
deriving DecidableEq, Repr

namespace Integral

/-- Every kind, in the order descriptions list them. -/
def all : List Integral :=
  [char, int8, int16, int32, int64, uint8, uint16, uint32, uint64, size, uintptr]

theorem mem_all (k : Integral) : k ∈ all := by
  cases k <;> decide

def name : Integral → String
  | char => "char"
  | int8 => "int8"
  | int16 => "int16"
  | int32 => "int32"
  | int64 => "int64"
  | uint8 => "uint8"
  | uint16 => "uint16"
  | uint32 => "uint32"
  | uint64 => "uint64"
  | size => "size"
  | uintptr => "uintptr"

def ofName? (s : String) : Option Integral :=
  all.find? fun k => k.name == s

theorem ofName?_name (k : Integral) : ofName? k.name = some k := by
  cases k <;> decide

end Integral

end AbiLayout
