import AbiLayout.Decimal.Shortest
import AbiLayout.Document.Reading

/-!
# JSON trees

The scalars of JSON, and what each is taken for. A string can be well formed and yet be no text (when
half of a surrogate pair stands alone), and a number can be too large to have a value; both can be
passed over but not read.
-/

namespace AbiLayout.Json

open Document

inductive Scalar where
  | null
  | boolean (b : Bool)
  | integer (n : Int)
  | real (x : Float)
  | text (s : String)
  /-- A string or number that denotes nothing. -/
  | unreadable

/-- A JSON value. The keys of objects are trees as well, and texts wherever the text is in order. -/
abbrev Tree : Type := Node Scalar

namespace Tree

def null : Tree := .scalar .null

def bool (b : Bool) : Tree := .scalar (.boolean b)

def nat (n : Nat) : Tree := .scalar (.integer n)

def text (s : String) : Tree := .scalar (.text s)

def array (items : List Tree) : Tree := .sequence items

def object (entries : List (String × Tree)) : Tree :=
  .mapping (entries.map fun e => (text e.1, e.2))

def optional (s : Option String) : Tree :=
  match s with
  | some s => text s
  | none => null

end Tree

/-- Numbers in messages have their point moved as long as the leading exponent is small, and of two
equally near decimals the even one is taken. -/
def numberLayout : Decimal.Layout := ⟨.toEven, some (-5), some 15⟩

def Scalar.found : Scalar → Except Fault Found
  | null => .ok (.nothing "null")
  | boolean b => .ok (.boolean b)
  | integer n => .ok (.integer n)
  | real x => .ok (.real (numberLayout.text x))
  | text s => .ok (.text s)
  | unreadable => .error .malformed

def Scalar.text? : Scalar → Option String
  | text s => some s
  | _ => none

def Scalar.flag? : Scalar → Option Bool
  | boolean b => some b
  | _ => none

def Scalar.isNull : Scalar → Bool
  | null => true
  | _ => false

def Scalar.word? : Scalar → Option UInt64
  | integer n => if 0 ≤ n && n.toNat < UInt64.size then some (UInt64.ofNat n.toNat) else none
  | _ => none

def format : Format Scalar where
  found := Scalar.found
  text? := Scalar.text?
  flag? := Scalar.flag?
  word? := Scalar.word?
  wrongInteger n := .mismatch (.invalidValue (.integer n) .word)
  isNothing s := .ok s.isNull
  isTagged _ := false
  isHollow _ := false
  structAsSequence := true
  limit := 127

end AbiLayout.Json
