/-!
# The fewest digits that read back

A finite binary64 number stands for every real that rounds to it. Its shortest decimal is the one with
the fewest digits among those reals, and of two with equally few the nearer one. The search is over
exact fractions: on the grid of one, two, … seventeen digits the two neighbours of the value are tried.
Which of two equally near ones is taken, and how the digits are then laid out (where the point stands,
when there is an exponent), is a matter of the format that shows them.
-/

namespace AbiLayout.Decimal

/-- A number `digits · 10 ^ exponent`. -/
structure Scientific where
  digits : Nat
  exponent : Int
deriving DecidableEq, Repr

/-- A finite binary64 number without its sign, as `mantissa · 2 ^ exponent`; `narrow` tells that the
number below is only half as far away as the number above. -/
structure Binary where
  mantissa : Nat
  exponent : Int
  narrow : Bool
deriving DecidableEq, Repr

def Binary.ofBits (bits : Nat) : Binary :=
  let fraction := bits % Nat.pow 2 52
  let power : Nat := bits / Nat.pow 2 52 % Nat.pow 2 11
  if power = 0 then ⟨fraction, -1074, false⟩
  else ⟨Nat.pow 2 52 + fraction, Int.ofNat power - 1075, fraction = 0 && 1 < power⟩

structure Ratio where
  num : Nat
  den : Nat

/-- `n · base ^ power` as a fraction. -/
def Ratio.scaled (n base : Nat) (power : Int) : Ratio :=
  if 0 ≤ power then ⟨n * Nat.pow base power.toNat, 1⟩ else ⟨n, Nat.pow base (-power).toNat⟩

def Ratio.le (a b : Ratio) : Bool := a.num * b.den ≤ b.num * a.den

def Ratio.lt (a b : Ratio) : Bool := a.num * b.den < b.num * a.den

/-- The number of digits of a positive number before the point, where it has any, as the least power
of ten above it. -/
def decimalPower (r : Ratio) : Int :=
  let guess : Int := (Nat.toDigits 10 r.num).length - (Nat.toDigits 10 r.den).length
  if r.lt (Ratio.scaled 1 10 guess) then guess else guess + 1

/-- The reals that round to a number: both ends belong to it exactly if its mantissa is even. -/
def Binary.readsBack (b : Binary) (r : Ratio) : Bool :=
  let low := Ratio.scaled (4 * b.mantissa - (if b.narrow then 1 else 2)) 2 (b.exponent - 2)
  let high := Ratio.scaled (4 * b.mantissa + 2) 2 (b.exponent - 2)
  if b.mantissa % 2 = 0 then low.le r && r.le high else low.lt r && r.lt high

/-- Which of two decimals is taken that are equally near. -/
inductive Tie where
  | toEven
  | up
deriving DecidableEq, Repr

/-- Whether the lower of two equally near decimals is taken. -/
def Tie.goesBelow (tie : Tie) (below : Nat) : Bool := tie = .toEven && below % 2 = 0

/-- The best decimal of a grid, if one of the value's neighbours there reads back. -/
def Binary.onGrid (b : Binary) (tie : Tie) (exponent : Int) : Option Scientific :=
  let value := Ratio.scaled b.mantissa 2 b.exponent
  let unit := Ratio.scaled 1 10 exponent
  let below := value.num * unit.den / (value.den * unit.num)
  let lowFits := 0 < below && b.readsBack (Ratio.scaled below 10 exponent)
  let highFits := b.readsBack (Ratio.scaled (below + 1) 10 exponent)
  let twice := 2 * value.num * unit.den
  let middle := (2 * below + 1) * value.den * unit.num
  match lowFits, highFits with
  | true, true =>
    some ⟨if twice < middle || (twice = middle && tie.goesBelow below) then below else below + 1,
      exponent⟩
  | true, false => some ⟨below, exponent⟩
  | false, true => some ⟨below + 1, exponent⟩
  | false, false => none

/-- Tries the grids of `count`, `count + 1`, … digits. -/
def Binary.search (b : Binary) (tie : Tie) (power : Int) : Nat → Nat → Scientific
  | 0, _ => ⟨b.mantissa, 0⟩
  | tries + 1, count =>
    match b.onGrid tie (power - count) with
    | some s => s
    | none => b.search tie power tries (count + 1)

/-- The digits of a number without a trailing zero. -/
def Scientific.trim (s : Scientific) : Nat → Scientific
  | 0 => s
  | fuel + 1 =>
    if s.digits ≠ 0 && s.digits % 10 = 0 then
      Scientific.trim ⟨s.digits / 10, s.exponent + 1⟩ fuel
    else s

/-- The shortest decimal of a finite number without its sign. -/
def Binary.shortest (b : Binary) (tie : Tie) : Scientific :=
  if b.mantissa = 0 then ⟨0, 0⟩
  else (b.search tie (decimalPower (Ratio.scaled b.mantissa 2 b.exponent)) 17 1).trim 20

/-- How a number is written. The point is moved into the digits for leading exponents from `least` to
`most`; elsewhere an exponent is written. -/
structure Layout where
  tie : Tie
  least : Option Int
  most : Option Int

/-- Whether a leading exponent is written by moving the point. -/
def Layout.isPositional (l : Layout) (leading : Int) : Bool :=
  (l.least.all (· ≤ leading)) && (l.most.all (leading ≤ ·))

/-- Digits with the point moved into them; a whole number ends in `.0`. -/
def positional (digits : List Char) (leading : Int) : List Char :=
  if leading < 0 then
    ['0', '.'] ++ List.replicate (-leading - 1).toNat '0' ++ digits
  else
    let whole := leading.toNat + 1
    if digits.length ≤ whole then digits ++ List.replicate (whole - digits.length) '0' ++ ['.', '0']
    else digits.take whole ++ ['.'] ++ digits.drop whole

/-- Digits with an exponent, which always has a sign. -/
def withExponent (digits : List Char) (leading : Int) : List Char :=
  let rest := digits.drop 1
  digits.take 1 ++ (if rest.isEmpty then [] else '.' :: rest) ++
    ['e', if leading < 0 then '-' else '+'] ++ Nat.toDigits 10 leading.natAbs

def Layout.text (l : Layout) (x : Float) : String :=
  let bits := x.toBits.toNat
  let s := (Binary.ofBits (bits % Nat.pow 2 63)).shortest l.tie
  let digits := Nat.toDigits 10 s.digits
  let leading := s.exponent + digits.length - 1
  String.ofList ((if bits / Nat.pow 2 63 = 1 then ['-'] else []) ++
    (if l.isPositional leading then positional digits leading else withExponent digits leading))

end AbiLayout.Decimal
