import AbiLayout.Json.Number

/-!
# Reading JSON text

The tree of a text. Where the text stops being JSON the tree gets a broken node, and what was read
before it stays: a reader of the tree decides whether it gets that far.
-/

namespace AbiLayout.Json

open Document

def isBlank (c : Char) : Bool := c = ' ' || c = '\n' || c = '\t' || c = '\r'

/-- The text from its first character that is not blank. -/
def skipBlanks (cs : List Char) : List Char := cs.dropWhile isBlank

def hexDigit? (c : Char) : Option Nat :=
  if c.isDigit then some (c.toNat - '0'.toNat)
  else if 'a' ≤ c && c ≤ 'f' then some (c.toNat - 'a'.toNat + 10)
  else if 'A' ≤ c && c ≤ 'F' then some (c.toNat - 'A'.toNat + 10)
  else none

def codeUnit? (a b c d : Char) : Option Nat := do
  return (← hexDigit? a) * 4096 + (← hexDigit? b) * 256 + (← hexDigit? c) * 16 + (← hexDigit? d)

def escape? (c : Char) : Option Char :=
  if c = '\x22' then some '\x22'
  else if c = '\\' then some '\\'
  else if c = '/' then some '/'
  else if c = 'b' then some '\x08'
  else if c = 'f' then some '\x0c'
  else if c = 'n' then some '\n'
  else if c = 'r' then some '\r'
  else if c = 't' then some '\t'
  else none

/-- A string that is being read: its characters so far in reverse, the first half of a surrogate pair
that waits for the second, and whether every half so far has found the other. -/
structure Partial where
  chars : List Char
  half : Option Nat
  isPaired : Bool

namespace Partial

def start : Partial := ⟨[], none, true⟩

def push (p : Partial) (c : Char) : Partial := ⟨c :: p.chars, none, p.isPaired && p.half.isNone⟩

def pushUnit (p : Partial) (unit : Nat) : Partial :=
  if 0xD800 ≤ unit && unit < 0xDC00 then ⟨p.chars, some unit, p.isPaired && p.half.isNone⟩
  else if 0xDC00 ≤ unit && unit < 0xE000 then
    match p.half with
    | some first =>
      ⟨Char.ofNat (0x10000 + (first - 0xD800) * 1024 + (unit - 0xDC00)) :: p.chars, none, p.isPaired⟩
    | none => ⟨p.chars, none, false⟩
  else p.push (Char.ofNat unit)

def finish (p : Partial) : Scalar :=
  if p.isPaired && p.half.isNone then .text (String.ofList p.chars.reverse) else .unreadable

end Partial

/-- Reads the rest of a string after its opening quote; none where it breaks off. -/
def readString (p : Partial) : List Char → Option (Scalar × List Char)
  | [] => none
  | '\x22' :: rest => some (p.finish, rest)
  | '\\' :: 'u' :: a :: b :: c :: d :: rest =>
    match codeUnit? a b c d with
    | some unit => readString (p.pushUnit unit) rest
    | none => none
  | '\\' :: e :: rest =>
    match escape? e with
    | some c => readString (p.push c) rest
    | none => none
  | c :: rest => if c.toNat < 0x20 || c = '\\' then none else readString (p.push c) rest

def dropText : List Char → List Char → Option (List Char)
  | [], cs => some cs
  | _ :: _, [] => none
  | w :: ws, c :: cs => if w = c then dropText ws cs else none

/-- A scalar that has been read, or a broken node. -/
def scalarOrBroken : Option (Scalar × List Char) → Tree × Option (List Char)
  | some (s, rest) => (.scalar s, some rest)
  | none => (.broken, none)

def readLiteral (word : String) (s : Scalar) (cs : List Char) : Tree × Option (List Char) :=
  scalarOrBroken ((dropText word.toList cs).map fun rest => (s, rest))

mutual

/-- Reads a value and gives the text after it, which is none where the text breaks off. The fuel has
to exceed twice the length of the text. -/
def readNode : Nat → List Char → Tree × Option (List Char)
  | 0, _ => (.broken, none)
  | fuel + 1, cs =>
    match skipBlanks cs with
    | [] => (.broken, none)
    | c :: rest =>
      if c = '[' then
        match skipBlanks rest with
        | ']' :: rest => (.sequence [], some rest)
        | rest =>
          let (items, rest) := readElements fuel rest
          (.sequence items, rest)
      else if c = '\x7b' then
        match skipBlanks rest with
        | '\x7d' :: rest => (.mapping [], some rest)
        | rest =>
          let (entries, rest) := readMembers fuel rest
          (.mapping entries, rest)
      else if c = '\x22' then scalarOrBroken (readString .start rest)
      else if c = 'n' then readLiteral "ull" .null rest
      else if c = 't' then readLiteral "rue" (.boolean true) rest
      else if c = 'f' then readLiteral "alse" (.boolean false) rest
      else scalarOrBroken (readNumber (c :: rest))

/-- Reads the elements of an array from the place where one has to stand. -/
def readElements : Nat → List Char → List Tree × Option (List Char)
  | 0, _ => ([.broken], none)
  | fuel + 1, cs =>
    match readNode fuel cs with
    | (n, none) => ([n], none)
    | (n, some rest) =>
      match skipBlanks rest with
      | ',' :: rest =>
        let (items, rest) := readElements fuel rest
        (n :: items, rest)
      | ']' :: rest => ([n], some rest)
      | _ => ([n, .broken], none)

/-- Reads the entries of an object from the place where a key has to stand. -/
def readMembers : Nat → List Char → List (Tree × Tree) × Option (List Char)
  | 0, _ => ([(.broken, .broken)], none)
  | fuel + 1, cs =>
    match skipBlanks cs with
    | '\x22' :: rest =>
      match readString .start rest with
      | none => ([(.broken, .broken)], none)
      | some (key, rest) =>
        match skipBlanks rest with
        | ':' :: rest =>
          match readNode fuel rest with
          | (n, none) => ([(.scalar key, n)], none)
          | (n, some rest) =>
            match skipBlanks rest with
            | ',' :: rest =>
              let (entries, rest) := readMembers fuel rest
              ((.scalar key, n) :: entries, rest)
            | '\x7d' :: rest => ([(.scalar key, n)], some rest)
            | _ => ([(.scalar key, n), (.broken, .broken)], none)
        | _ => ([(.scalar key, .broken)], none)
    | _ => ([(.broken, .broken)], none)

end

def readDocument (text : String) : Parsed Scalar :=
  let cs := text.toList
  let (root, rest) := readNode (2 * cs.length + 2) cs
  { root, isWhole := rest.any fun r => (skipBlanks r).isEmpty }

end AbiLayout.Json
