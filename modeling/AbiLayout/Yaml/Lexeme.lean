import AbiLayout.Yaml.Cursor
import AbiLayout.Yaml.Token

/-!
# Scalars, anchors, tags and directives

The tokens that have a text of their own. Each reader starts at the first character of its token and
gives the token with the place after it, or nothing where the text is at fault.

Words of a scalar are joined over the blanks between them: within a line the blanks are kept; at an end
of line they are dropped, a single end of line becomes one blank, and further ones are kept.
-/

namespace AbiLayout.Yaml

/-! ### Joining words -/

/-- What stands between two words of a scalar. -/
structure Gap where
  blanks : List Char
  isBroken : Bool
  first : List Char
  others : List Char

namespace Gap

def none : Gap := ⟨[], false, [], []⟩

def escaped : Gap := ⟨[], true, [], []⟩

def text (g : Gap) : List Char :=
  if g.isBroken then
    if g.first = ['\n'] then (if g.others.isEmpty then [' '] else g.others)
    else g.first ++ g.others
  else g.blanks

def pushBlank (g : Gap) (c : Char) : Gap :=
  if g.isBroken then g else { g with blanks := g.blanks ++ [c] }

def pushBreak (g : Gap) (b : List Char) : Gap :=
  if g.isBroken then { g with others := g.others ++ b } else ⟨[], true, b, []⟩

end Gap

/-- Passes over blanks and ends of line. A tab that stands left of `margin` after an end of line is a
fault. -/
def scanGap (margin : Nat) : Nat → Gap → Cursor → Option (Gap × Cursor)
  | 0, g, c => some (g, c)
  | fuel + 1, g, c =>
    match c.rest with
    | [] => some (g, c)
    | ch :: _ =>
      if isBlank ch then
        if g.isBroken && c.column < margin && ch = '\t' then Option.none
        else scanGap margin fuel (g.pushBlank ch) (c.advance 1)
      else if isBreak ch then scanGap margin fuel (g.pushBreak c.takeBreak.1) c.skipBreak
      else some (g, c)

/-! ### Plain scalars -/

/-- The characters that delimit flow containers and their entries. -/
def isFlowMark (c : Char) : Bool := c = ',' || c = '[' || c = ']' || c = '\x7b' || c = '\x7d'

/-- Whether `:` before this text is at odds with the flow container around it. -/
def misplacedColon : List Char → Bool
  | [] => false
  | c :: _ => isFlowMark c || c = '?'

/-- One word of a plain scalar, at the start of a text. -/
def plainWord (inFlow : Bool) : List Char → Option (List Char)
  | [] => some []
  | c :: rest =>
    if isSpace c then some []
    else if inFlow && c = ':' && misplacedColon rest then none
    else if (c = ':' && endsWord rest) || (inFlow && isFlowMark c) then some []
    else (plainWord inFlow rest).map (c :: ·)

/-- The rest of a plain scalar after a gap: its text, whether an end of line was passed at last, and the
place after it. -/
def scanPlainRest (inFlow : Bool) (margin : Nat) :
    Nat → Gap → Cursor → Option (List Char × Bool × Cursor)
  | 0, _, _ => none
  | fuel + 1, gap, c =>
    if c.atMarker || c.rest.head? == some '#' then some ([], gap.isBroken, c)
    else do
      let word ← plainWord inFlow c.rest
      let start := if word.isEmpty then [] else gap.text ++ word
      let gap := if word.isEmpty then gap else .none
      let c := c.advance word.length
      if !(c.rest.head?.any isSpace) then return (start, gap.isBroken, c)
      let (gap, c) ← scanGap margin c.steps gap c
      if !inFlow && c.column < margin then return (start, gap.isBroken, c)
      let (text, isBroken, c) ← scanPlainRest inFlow margin fuel gap c
      return (start ++ text, isBroken, c)

def scanPlain (inFlow : Bool) (margin : Nat) (c : Cursor) : Option (Token × Bool × Cursor) := do
  let (text, isBroken, c) ← scanPlainRest inFlow margin c.steps .none c
  return (.scalar ⟨String.ofList text, .plain⟩, isBroken, c)

/-! ### Quoted scalars -/

def hexValue? (c : Char) : Option Nat :=
  if c.isDigit then some (c.toNat - '0'.toNat)
  else if 'a' ≤ c && c ≤ 'f' then some (c.toNat - 'a'.toNat + 10)
  else if 'A' ≤ c && c ≤ 'F' then some (c.toNat - 'A'.toNat + 10)
  else none

def codedChar? (digits : List Char) : Option Char := do
  let n ← digits.foldlM (fun n d => do return 16 * n + (← hexValue? d)) 0
  if (0xD800 ≤ n && n ≤ 0xDFFF) || 0x10FFFF < n then none else return Char.ofNat n

/-- The character of an escape without a code. -/
def escapedChar? (c : Char) : Option Char :=
  [('0', '\x00'), ('a', '\x07'), ('b', '\x08'), ('t', '\t'), ('\t', '\t'), ('n', '\n'),
    ('v', '\x0b'), ('f', '\x0c'), ('r', '\r'), ('e', '\x1b'), (' ', ' '), ('\x22', '\x22'),
    ('/', '/'), ('\\', '\\'), ('N', '\x85'), ('_', '\xa0'), ('L', '\u2028'), ('P', '\u2029')].lookup c

def codeLength (c : Char) : Option Nat := [('x', 2), ('u', 4), ('U', 8)].lookup c

/-- The character of an escape, after its backslash, and how many characters the escape has. -/
def scanEscape : List Char → Option (Char × Nat)
  | [] => none
  | c :: rest => match escapedChar? c with
    | some ch => some (ch, 1)
    | none => do
      let n ← codeLength c
      if (rest.take n).length < n then none
      else return (← codedChar? (rest.take n), n + 1)

/-- One word of a quoted scalar, at the start of a text, and how many characters it is written with. It
ends before a space, the closing quote or an escaped end of line. -/
def quotedWord (single : Bool) : Nat → List Char → Option (List Char × Nat)
  | 0, _ => some ([], 0)
  | _ + 1, [] => some ([], 0)
  | fuel + 1, c :: rest =>
    if isSpace c then some ([], 0)
    else if single then
      if c = '\x27' then
        match rest with
        | '\x27' :: rest =>
          (quotedWord single fuel rest).map fun (word, n) => ('\x27' :: word, n + 2)
        | _ => some ([], 0)
      else (quotedWord single fuel rest).map fun (word, n) => (c :: word, n + 1)
    else if c = '\x22' then some ([], 0)
    else if c = '\\' then
      if rest.head?.any isBreak then some ([], 0)
      else do
        let (ch, size) ← scanEscape rest
        let (word, n) ← quotedWord single fuel (rest.drop size)
        return (ch :: word, n + size + 1)
    else (quotedWord single fuel rest).map fun (word, n) => (c :: word, n + 1)

/-- The text of a quoted scalar from here on, and the place after it. -/
def scanQuotedRest (single : Bool) : Nat → Cursor → Option (List Char × Cursor)
  | 0, _ => none
  | fuel + 1, c =>
    if c.atMarker || c.rest.isEmpty then none
    else do
      let (word, n) ← quotedWord single c.steps c.rest
      let c := c.advance n
      match c.rest with
      | [] => none
      | ch :: _ =>
        if ch = (if single then '\x27' else '\x22') then return (word, c.advance 1)
        else
          let (gap, c) := if ch = '\\' then (Gap.escaped, (c.advance 1).skipBreak) else (Gap.none, c)
          let (gap, c) ← scanGap 0 c.steps gap c
          let (text, c) ← scanQuotedRest single fuel c
          return (word ++ gap.text ++ text, c)

def scanQuoted (single : Bool) (c : Cursor) : Option (Token × Cursor) := do
  let c := c.advance 1
  let (text, c) ← scanQuotedRest single c.steps c
  return (.scalar ⟨String.ofList text, .quoted⟩, c)

/-! ### Block scalars -/

/-- What becomes of the ends of line at the end of a block scalar. -/
inductive Chomping where
  | strip
  | clip
  | keep
deriving DecidableEq, Repr

def chomping? (c : Char) : Option Chomping :=
  if c = '+' then some .keep else if c = '-' then some .strip else none

/-- The header of a block scalar after its mark: chomping and explicit indentation, in either order. -/
def blockHeader (c : Cursor) : Option (Chomping × Nat × Cursor) :=
  let digit (c : Cursor) : Option (Nat × Cursor) :=
    match c.rest with
    | d :: _ =>
      if d.isDigit then
        if d = '0' then none else some (d.toNat - '0'.toNat, c.advance 1)
      else some (0, c)
    | [] => some (0, c)
  match c.rest.head?.bind chomping? with
  | some chomping => do
    let (n, c) ← digit (c.advance 1)
    return (chomping, n, c)
  | none => do
    let (n, c) ← digit c
    if n = 0 then return (.clip, 0, c)
    else match c.rest.head?.bind chomping? with
      | some chomping => return (chomping, n, c.advance 1)
      | none => return (.clip, n, c)

/-- Passes over the indentation and the empty lines before a line of a block scalar, where `indent` is
zero as long as it is not known. Gives the ends of line, the widest indentation, and the place. -/
def scanBlockBreaks (indent : Nat) :
    Nat → List Char → Nat → Cursor → Option (List Char × Nat × Cursor)
  | 0, _, _, _ => none
  | fuel + 1, breaks, widest, c =>
    let blanks := (c.rest.takeWhile (· = ' ')).length
    let c := c.advance (if indent = 0 then blanks else min blanks (indent - c.column))
    let widest := max widest c.column
    if (indent = 0 || c.column < indent) && c.rest.head? == some '\t' then none
    else if c.rest.head?.any isBreak then
      scanBlockBreaks indent fuel (breaks ++ c.takeBreak.1) widest c.skipBreak
    else some (breaks, widest, c)

/-- The lines of a block scalar from here on, where `last` is the end of the line before and `breaks` the
ends of the empty lines after it. Gives the text, what the last line and the empty lines after it end
in, and the place. -/
def scanBlockLines (literal : Bool) (indent : Nat) :
    Nat → List Char → List Char → Bool → Cursor →
      Option (List Char × List Char × List Char × Cursor)
  | 0, _, _, _, _ => none
  | fuel + 1, last, breaks, wasBlank, c =>
    if c.column = indent && !c.rest.isEmpty then do
      let isBlankLine := c.rest.head?.any isBlank
      let joint :=
        if !literal && last = ['\n'] && !wasBlank && !isBlankLine then
          if breaks.isEmpty then [' '] else []
        else last
      let (line, c) := c.takeWhile fun ch => !isBreak ch
      let (last, c) := c.takeBreak
      let (following, _, c) ← scanBlockBreaks indent c.steps [] 0 c
      let (text, last, following, c) ← scanBlockLines literal indent fuel last following isBlankLine c
      return (joint ++ breaks ++ line ++ text, last, following, c)
    else some ([], last, breaks, c)

/-- Reads a block scalar inside a block of indentation `parent`, which is -1 outside of all. -/
def scanBlock (literal : Bool) (parent : Int) (c : Cursor) : Option (Token × Cursor) := do
  let (chomping, increment, c) ← blockHeader (c.advance 1)
  let c ← c.finishLine
  let given := if increment = 0 then 0 else (max parent 0).toNat + increment
  let (breaks, widest, c) ← scanBlockBreaks given c.steps [] 0 c
  let indent := if given = 0 then max (max widest (parent + 1).toNat) 1 else given
  let (text, last, breaks, c) ←
    scanBlockLines literal indent c.steps [] breaks false c
  let tail := match chomping with
    | .strip => []
    | .clip => last
    | .keep => last ++ breaks
  return (.scalar ⟨String.ofList (text ++ tail), if literal then .literal else .folded⟩, c)

/-! ### Anchors -/

/-- A character that may follow an anchor directly. -/
def endsAnchor : List Char → Bool
  | [] => true
  | c :: _ => isSpace c || ['?', ':', ',', ']', '\x7d', '%', '@', '`'].contains c

def scanAnchor (isReference : Bool) (c : Cursor) : Option (Token × Cursor) :=
  let (name, c) := (c.advance 1).takeWhile isWordChar
  if name.isEmpty || !endsAnchor c.rest then none
  else
    let name := String.ofList name
    some (if isReference then .reference name else .anchor name, c)

/-! ### Tags and directives -/

/-- A character that stands for itself in a tag; flow marks do so only inside `<` and `>`. -/
def isTagChar (verbatim : Bool) (c : Char) : Bool :=
  isWordChar c || [';', '/', '?', ':', '@', '&', '=', '+', '$', '.', '!', '~', '*', '\x27', '(',
    ')'].contains c || (verbatim && [',', '[', ']'].contains c)

/-- The octet that is written with `%` and two hexadecimal digits. -/
def scanOctet : List Char → Option (Nat × List Char)
  | '%' :: a :: b :: rest => do return (16 * (← hexValue? a) + (← hexValue? b), rest)
  | _ => none

/-- How many octets follow the first one of a character, and what the first one adds to its code. -/
def octetsAfter? (first : Nat) : Option (Nat × Nat) :=
  if first < 0x80 then some (0, first)
  else if first < 0xC0 then none
  else if first < 0xE0 then some (1, first - 0xC0)
  else if first < 0xF0 then some (2, first - 0xE0)
  else if first < 0xF8 then some (3, first - 0xF0)
  else none

/-- The further octets of a character, after the code that comes before them. -/
def scanOctets : Nat → Nat → List Char → Option (Nat × List Char)
  | 0, code, cs => some (code, cs)
  | count + 1, code, cs => do
    let (octet, rest) ← scanOctet cs
    if 0x80 ≤ octet && octet < 0xC0 then scanOctets count (64 * code + (octet - 0x80)) rest else none

/-- The text of a tag, in which characters may be written by their octets, and what follows it. -/
def tagText (verbatim : Bool) : Nat → List Char → Option (List Char × List Char)
  | 0, cs => some ([], cs)
  | _ + 1, [] => some ([], [])
  | fuel + 1, c :: rest =>
    if c = '%' then do
      let (first, rest) ← scanOctet (c :: rest)
      let (count, code) ← octetsAfter? first
      let (code, rest) ← scanOctets count code rest
      let (text, rest) ← tagText verbatim fuel rest
      return (Char.ofNat code :: text, rest)
    else if isTagChar verbatim c then (tagText verbatim fuel rest).map fun (text, rest) => (c :: text, rest)
    else some ([], c :: rest)

def scanTagText (verbatim : Bool) (c : Cursor) : Option (List Char × Cursor) := do
  let (text, rest) ← tagText verbatim c.steps c.rest
  return (text, c.advance (c.rest.length - rest.length))

/-- Reads a tag handle: `!`, `!!` or `!word!`, or `!word` where the word is no handle. -/
def scanHandle (c : Cursor) : Option (List Char × Cursor) :=
  match c.rest with
  | '!' :: _ =>
    let (word, c) := (c.advance 1).takeWhile isWordChar
    match c.rest with
    | '!' :: _ => some ('!' :: word ++ ['!'], c.advance 1)
    | _ => some ('!' :: word, c)
  | _ => none

def scanTag (inFlow : Bool) (c : Cursor) : Option (Token × Cursor) := do
  let (handle, suffix, c) ← (match c.rest with
    | '!' :: '<' :: _ => do
      let (text, c) ← scanTagText true (c.advance 2)
      if text.isEmpty || c.rest.head? != some '>' then none
      else return ([], text, c.advance 1)
    | _ => do
      let (handle, c) ← scanHandle c
      let (text, c) ← scanTagText false c
      if 1 < handle.length && handle.getLast? == some '!' then
        if text.isEmpty then none else return (handle, text, c)
      else
        let suffix := handle.drop 1 ++ text
        return if suffix.isEmpty then ([], ['!'], c) else (['!'], suffix, c))
  if endsWord c.rest || (inFlow && c.rest.head? == some ',') then
    return (.tag (String.ofList handle) (String.ofList suffix), c)
  else none

def scanVersionNumber (c : Cursor) : Option (Nat × Cursor) :=
  let (digits, c) := c.takeWhile Char.isDigit
  if digits.isEmpty || 9 < digits.length then none
  else some (digits.foldl (fun n d => 10 * n + (d.toNat - '0'.toNat)) 0, c)

/-- Reads a directive, to the end of its line. -/
def scanDirective (c : Cursor) : Option (Token × Cursor) := do
  let (name, c) := (c.advance 1).takeWhile isWordChar
  if name.isEmpty || !endsWord c.rest then none
  else
    let c := c.skipWhile isBlank
    if name = "YAML".toList then
      let (major, c) ← scanVersionNumber c
      if c.rest.head? != some '.' then none
      else
        let (minor, c) ← scanVersionNumber (c.advance 1)
        return (.version major minor, ← c.finishLine)
    else if name = "TAG".toList then
      let (handle, c) ← scanHandle c
      if (handle != ['!'] && handle.getLast? != some '!') || !(c.rest.head?.any isBlank) then none
      else
        let (lead, c) ← scanTagText true (c.skipWhile isBlank)
        if lead.isEmpty || !endsWord c.rest then none
        else
          return (.tagShorthand (String.ofList handle) (String.ofList lead), ← c.finishLine)
    else none

end AbiLayout.Yaml
