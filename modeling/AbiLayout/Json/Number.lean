import AbiLayout.Json.Tree

/-!
# Numbers of JSON

A number without a fraction or an exponent is an integer as long as a machine word holds it. All other
numbers are binary: as many leading digits as a word holds make up a significand, which is then scaled
by a power of ten in one step, or in steps of 308 where the power is beyond the table of powers.
-/

namespace AbiLayout.Json

structure NumberText where
  isNegative : Bool
  whole : List Char
  fraction : List Char
  exponent : Option Int

def digitValue (c : Char) : Nat := c.toNat - '0'.toNat

def digitsValue (digits : List Char) : Nat := digits.foldl (fun n c => 10 * n + digitValue c) 0

/-- Appends digits to a significand as long as a word holds it; the rest is given back. -/
def accumulate (significand : Nat) : List Char → Nat × List Char
  | [] => (significand, [])
  | c :: rest =>
    if 10 * significand + digitValue c < UInt64.size then
      accumulate (10 * significand + digitValue c) rest
    else (significand, c :: rest)

def powerOfTen (n : Nat) : Float := Float.ofScientific 1 false n

/-- A number scaled by a power of ten, if it stays finite. -/
def scale (x : Float) (power : Int) : Nat → Option Float
  | 0 => some x
  | steps + 1 =>
    if power.natAbs ≤ 308 then
      if 0 ≤ power then
        let y := x * powerOfTen power.natAbs
        if y.isInf then none else some y
      else some (x / powerOfTen power.natAbs)
    else if x == 0 then some x
    else if 0 ≤ power then none
    else scale (x / powerOfTen 308) (power + 308) steps

/-- The greatest exponent that is counted; one beyond it decides by its sign alone. -/
def exponentLimit : Int := 2147483647

def binary (isNegative : Bool) (significand : Nat) (power : Int) : Scalar :=
  match scale (UInt64.ofNat significand).toFloat power 4 with
  | some x => .real (if isNegative then -x else x)
  | none => .unreadable

/-- The value of a number with a fraction or an exponent, or of one that no word holds. -/
def NumberText.real (t : NumberText) : Scalar :=
  let (whole, dropped) := accumulate 0 t.whole
  let (significand, ignored) := accumulate whole t.fraction
  let power : Int := dropped.length - (t.fraction.length - ignored.length : Nat)
  match t.exponent with
  | none => binary t.isNegative significand power
  | some e =>
    if exponentLimit < e then
      if significand = 0 then binary t.isNegative 0 0 else .unreadable
    else if e < -exponentLimit then binary t.isNegative 0 0
    else binary t.isNegative significand (power + e)

def NumberText.value (t : NumberText) : Scalar :=
  if t.fraction.isEmpty && t.exponent.isNone then
    let n := digitsValue t.whole
    if t.isNegative then
      if n = 0 || Nat.pow 2 63 < n then t.real else .integer (-(n : Int))
    else if n < UInt64.size then .integer n
    else t.real
  else t.real

def spanDigits (cs : List Char) : List Char × List Char := cs.span Char.isDigit

/-- Reads the fraction of a number, if there is a point; a point needs a digit after it. -/
def readFraction : List Char → Option (List Char × List Char)
  | '.' :: rest =>
    let (digits, rest) := spanDigits rest
    if digits.isEmpty then none else some (digits, rest)
  | cs => some ([], cs)

def readExponentSign : List Char → Bool × List Char
  | '-' :: rest => (true, rest)
  | '+' :: rest => (false, rest)
  | cs => (false, cs)

/-- Reads the exponent of a number, if there is one; it needs a digit. -/
def readExponent : List Char → Option (Option Int × List Char)
  | [] => some (none, [])
  | c :: rest =>
    if c = 'e' || c = 'E' then
      let (isNegative, rest) := readExponentSign rest
      let (digits, rest) := spanDigits rest
      if digits.isEmpty then none
      else
        let n : Int := digitsValue digits
        some (some (if isNegative then -n else n), rest)
    else some (none, c :: rest)

/-- Reads the part of a number after its sign. A leading zero stands alone. -/
def readUnsigned (isNegative : Bool) (cs : List Char) : Option (Scalar × List Char) := do
  let (whole, rest) := spanDigits cs
  if whole.isEmpty || (whole.head? == some '0' && 1 < whole.length) then none
  else
    let (fraction, rest) ← readFraction rest
    let (exponent, rest) ← readExponent rest
    return (NumberText.value ⟨isNegative, whole, fraction, exponent⟩, rest)

/-- Reads a number, if the text begins with one that is well formed. -/
def readNumber : List Char → Option (Scalar × List Char)
  | '-' :: rest => readUnsigned true rest
  | cs => readUnsigned false cs

end AbiLayout.Json
