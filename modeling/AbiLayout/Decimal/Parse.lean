/-!
# Decimal numbers in text

A decimal number is digits with an optional point among them and an optional exponent. Its binary value
is the nearest one; a number beyond the finite ones has no value here.
-/

namespace AbiLayout.Decimal

def natOfDigits (digits : List Char) : Nat :=
  digits.foldl (fun n c => 10 * n + (c.toNat - '0'.toNat)) 0

def exponent? : List Char → Option Int
  | [] => some 0
  | c :: rest =>
    if c = 'e' || c = 'E' then
      let (isNegative, digits) := match rest with
        | '-' :: digits => (true, digits)
        | '+' :: digits => (false, digits)
        | digits => (false, digits)
      if digits.isEmpty || !digits.all Char.isDigit then none
      else
        let n : Int := natOfDigits digits
        some (if isNegative then -n else n)
    else none

/-- The nearest binary number to `digits · 10 ^ exponent`, if it is finite. -/
def nearest (digits : List Char) (exponent : Int) : Option Float :=
  let n := natOfDigits digits
  let power := (digits.dropWhile (· = '0')).length + exponent
  if n = 0 || power < -400 then some 0
  else if 400 < power then none
  else
    let x := if 0 ≤ exponent then Float.ofScientific (n * Nat.pow 10 exponent.toNat) false 0
      else Float.ofScientific n true (-exponent).toNat
    if x.isFinite then some x else none

/-- The value of a decimal number without a sign. -/
def unsigned? (cs : List Char) : Option Float :=
  let whole := cs.takeWhile Char.isDigit
  let (fraction, rest) := match cs.dropWhile Char.isDigit with
    | '.' :: rest => (rest.takeWhile Char.isDigit, rest.dropWhile Char.isDigit)
    | rest => ([], rest)
  if whole.isEmpty && fraction.isEmpty then none
  else (exponent? rest).bind fun e => nearest (whole ++ fraction) (e - fraction.length)

def parse? : List Char → Option Float
  | '-' :: rest => (unsigned? rest).map fun x => -x
  | '+' :: rest => unsigned? rest
  | cs => unsigned? cs

end AbiLayout.Decimal
