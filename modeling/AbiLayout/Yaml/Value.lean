import AbiLayout.Decimal.Parse
import AbiLayout.Decimal.Shortest
import AbiLayout.Document.Fault

/-!
# What plain scalars stand for

A plain scalar is null, a truth value, an integer, a real number or a text, and the first of these that
its spelling fits decides. Integers may be written to base 16, 8 and 2 with a mark in front. Digits
after a leading zero are no number.
-/

namespace AbiLayout.Yaml

open Document (Found)

def isNullWord (s : String) : Bool := ["null", "Null", "NULL", "~"].contains s

/-- The spellings of null: its words, and nothing at all. -/
def isNull (s : String) : Bool := s.isEmpty || isNullWord s

def truth? (s : String) : Option Bool :=
  if ["true", "True", "TRUE"].contains s then some true
  else if ["false", "False", "FALSE"].contains s then some false
  else none

def digit? (base : Nat) (c : Char) : Option Nat :=
  let n :=
    if c.isDigit then c.toNat - '0'.toNat
    else if 'a' ≤ c && c ≤ 'z' then c.toNat - 'a'.toNat + 10
    else if 'A' ≤ c && c ≤ 'Z' then c.toNat - 'A'.toNat + 10
    else base
  if n < base then some n else none

/-- The number that digits write to a base, of which there has to be one at least. -/
def natural? (base : Nat) (cs : List Char) : Option Nat :=
  if cs.isEmpty then none
  else cs.foldlM (fun n c => do return base * n + (← digit? base c)) 0

/-- Digits after a leading zero, with or without a sign. -/
def isZeroPadded (cs : List Char) : Bool :=
  let digits := match cs with
    | '-' :: rest => rest
    | '+' :: rest => rest
    | cs => cs
  match digits with
  | '0' :: c :: rest => (c :: rest).all Char.isDigit
  | _ => false

/-- The digits after the mark of a base, and the base. -/
def based? : List Char → Option (Nat × List Char)
  | '0' :: 'x' :: rest => some (16, rest)
  | '0' :: 'o' :: rest => some (8, rest)
  | '0' :: 'b' :: rest => some (2, rest)
  | _ => none

/-- The number after a sign, to base ten or to the base of its mark. -/
def magnitude? (cs : List Char) : Option Nat :=
  match (based? cs).bind fun (base, digits) => natural? base digits with
  | some n => some n
  | none => natural? 10 cs

/-- The integer without a minus sign that a scalar spells. -/
def positive? (cs : List Char) : Option Nat :=
  if isZeroPadded cs then none
  else match cs with
    | '+' :: rest => magnitude? rest
    | cs => magnitude? cs

/-- What a scalar with a minus sign spells, without the sign. -/
def negative? (cs : List Char) : Option Nat :=
  if isZeroPadded cs then none
  else match cs with
    | '-' :: rest => magnitude? rest
    | _ => none

def word? (s : String) : Option UInt64 :=
  (positive? s.toList).bind fun n => if n < UInt64.size then some (UInt64.ofNat n) else none

/-- The integer that a scalar spells, as far as four machine words hold it. -/
def integer? (cs : List Char) : Option Found :=
  match positive? cs with
  | some n =>
    if n < UInt64.size then some (.integer n)
    else if n < Nat.pow 2 128 then some (.wideInteger n "u128")
    else none
  | none => match negative? cs with
    | some n =>
      if n ≤ Nat.pow 2 63 then some (.integer (-(n : Int)))
      else if n ≤ Nat.pow 2 127 then some (.wideInteger (-(n : Int)) "i128")
      else none
    | none => none

/-- Real numbers in messages have no exponent, and of two equally near decimals the greater one is
taken. -/
def realLayout : Decimal.Layout := ⟨.up, none, none⟩

/-- The real number that a scalar spells, as messages show it. -/
def real? (s : String) : Option Found :=
  if [".inf", ".Inf", ".INF", "+.inf", "+.Inf", "+.INF"].contains s then some (.real "inf")
  else if ["-.inf", "-.Inf", "-.INF"].contains s then some (.real "-inf")
  else if [".nan", ".NaN", ".NAN"].contains s then some (.real "NaN")
  else if s.toList.take 2 = ['+', '-'] || s.toList.take 2 = ['+', '+'] then none
  else (Decimal.parse? s.toList).map fun x => .real (realLayout.text x)

def plainValue (s : String) : Found :=
  if isNull s then .nothing "unit value"
  else match truth? s with
    | some b => .boolean b
    | none => match integer? s.toList with
      | some found => found
      | none => if isZeroPadded s.toList then .text s else (real? s).getD (.text s)

end AbiLayout.Yaml
