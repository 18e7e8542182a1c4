import AbiLayout.Yaml.Lexeme

/-!
# The tokens of a text

Whether a scalar is a key shows only when the `:` after it is reached. So tokens wait in a queue, and a
place where a key may have begun is remembered; when its `:` comes, the key token, and the start of a
mapping where there was none, are put in front of it. A token is given out when no open place is left
that could still put something before it. A key has to end on its line and within 1024 bytes.

In block containers the indentation decides: a deeper column opens a container, a shallower one closes
all that are deeper.
-/

namespace AbiLayout.Yaml

/-- A place where a key may have begun, inside of `level` flow containers, and the number of the token
there. -/
structure OpenKey where
  level : Nat
  isRequired : Bool
  number : Nat
  index : Nat
  line : Nat
  column : Nat
deriving DecidableEq, Repr

/-- The state of reading tokens. -/
structure Scanner where
  cursor : Cursor
  given : Nat
  queue : List Token
  /-- The columns of the open block containers, the innermost first. -/
  indent : Int
  outer : List Int
  flow : Nat
  mayOpenKey : Bool
  /-- The open keys, at most one inside of each number of flow containers, the innermost first. -/
  keys : List OpenKey
deriving Repr

namespace Scanner

def start (cs : List Char) : Scanner :=
  ⟨.start cs, 0, [], -1, [], 0, true, []⟩

def enqueue (s : Scanner) (t : Token) : Scanner := { s with queue := s.queue ++ [t] }

def insertAt (s : Scanner) (number : Nat) (t : Token) : Scanner :=
  { s with queue := s.queue.take (number - s.given) ++ t :: s.queue.drop (number - s.given) }

/-! ### Keys -/

/-- Whether an open key can no longer be one. -/
def isStale (s : Scanner) (k : OpenKey) : Bool :=
  k.line < s.cursor.line || k.index + 1024 < s.cursor.index

/-- Gives up the open keys that are stale; a required one is a fault. -/
def dropStale (s : Scanner) : Option Scanner :=
  if s.keys.any fun k => s.isStale k && k.isRequired then none
  else some { s with keys := s.keys.filter fun k => !s.isStale k }

/-- The open key of this flow container, and the others. -/
def splitKeys (s : Scanner) : Option OpenKey × List OpenKey :=
  match s.keys with
  | [] => (none, [])
  | k :: rest => if k.level = s.flow then (some k, rest) else (none, k :: rest)

/-- Gives up the open key of this flow container; a required one is a fault. -/
def dropKey (s : Scanner) : Option Scanner :=
  let (k, rest) := s.splitKeys
  if k.any (·.isRequired) then none else some { s with keys := rest }

/-- Remembers this place as one where a key may begin. -/
def saveKey (s : Scanner) : Option Scanner :=
  if s.mayOpenKey then do
    let s ← s.dropKey
    let k : OpenKey :=
      { level := s.flow
        isRequired := s.flow = 0 && s.indent = s.cursor.column
        number := s.given + s.queue.length
        index := s.cursor.index
        line := s.cursor.line
        column := s.cursor.column }
    return { s with keys := k :: s.keys }
  else some s

/-! ### Indentation -/

/-- Opens a block container at a column, unless one is open there. -/
def openBlock (s : Scanner) (column : Nat) (number : Option Nat) (t : Token) : Scanner :=
  if s.flow = 0 && s.indent < column then
    let s := { s with outer := s.indent :: s.outer, indent := column }
    match number with
    | some number => s.insertAt number t
    | none => s.enqueue t
  else s

def closeBlocks (s : Scanner) (column : Int) : Scanner :=
  if s.flow = 0 then go s s.outer else s
where
  /-- Closes containers along the list of those outside of the innermost. -/
  go (s : Scanner) : List Int → Scanner
    | [] => s
    | parent :: outer =>
      if column < s.indent then
        go { s with queue := s.queue ++ [.blockEnd], indent := parent, outer := outer } outer
      else s

/-! ### One token -/

/-- Passes over what stands between tokens. A tab belongs to it only where no key may begin, a byte order
mark only at the start of a line. -/
def skipSpace : Nat → Scanner → Scanner
  | 0, s => s
  | fuel + 1, s =>
    let c := if s.cursor.column = 0 && s.cursor.rest.head? == some '\ufeff' then s.cursor.advance 1
      else s.cursor
    let tabs := 0 < s.flow || !s.mayOpenKey
    let c := (c.skipWhile fun ch => ch = ' ' || (tabs && ch = '\t')).skipComment
    if c.rest.head?.any isBreak then
      skipSpace fuel
        { s with cursor := c.skipBreak, mayOpenKey := if s.flow = 0 then true else s.mayOpenKey }
    else { s with cursor := c }

def takeMark (s : Scanner) (n : Nat) (t : Token) : Scanner :=
  { s.enqueue t with cursor := s.cursor.advance n }

/-- Adds the end of the text, which ends its last line as well. -/
def takeEnd (s : Scanner) : Option Scanner := do
  let s ← (s.closeBlocks (-1)).dropKey
  let c := s.cursor
  let c := if c.column = 0 then c else { c with line := c.line + 1, column := 0 }
  return { s.enqueue .streamEnd with cursor := c, mayOpenKey := false }

def takeDirective (s : Scanner) : Option Scanner := do
  let s ← (s.closeBlocks (-1)).dropKey
  let (t, c) ← scanDirective s.cursor
  return { s.enqueue t with cursor := c, mayOpenKey := false }

def takeMarker (s : Scanner) (t : Token) : Option Scanner := do
  let s ← (s.closeBlocks (-1)).dropKey
  return { s.takeMark 3 t with mayOpenKey := false }

def openFlow (s : Scanner) (t : Token) : Option Scanner := do
  let s ← s.saveKey
  return { s.takeMark 1 t with flow := s.flow + 1, mayOpenKey := true }

def closeFlow (s : Scanner) (t : Token) : Option Scanner := do
  let s ← s.dropKey
  return { s.takeMark 1 t with flow := s.flow - 1, mayOpenKey := false }

def takeFlowEntry (s : Scanner) : Option Scanner := do
  let s ← s.dropKey
  return { s.takeMark 1 .flowEntry with mayOpenKey := true }

def takeBlockEntry (s : Scanner) : Option Scanner :=
  if s.flow = 0 && !s.mayOpenKey then none
  else do
    let s ← (s.openBlock s.cursor.column none .blockSequenceStart).dropKey
    return { s.takeMark 1 .blockEntry with mayOpenKey := true }

def takeKey (s : Scanner) : Option Scanner :=
  if s.flow = 0 && !s.mayOpenKey then none
  else do
    let s ← (s.openBlock s.cursor.column none .blockMappingStart).dropKey
    return { s.takeMark 1 .key with mayOpenKey := s.flow = 0 }

/-- Adds the mark of a value, and its key in front of what is the key. -/
def takeValue (s : Scanner) : Option Scanner :=
  match s.splitKeys with
  | (some k, rest) =>
    let s := (s.insertAt k.number .key).openBlock k.column (some k.number) .blockMappingStart
    some { s.takeMark 1 .value with keys := rest, mayOpenKey := false }
  | (none, _) =>
    if s.flow = 0 && !s.mayOpenKey then none
    else
      let s := s.openBlock s.cursor.column none .blockMappingStart
      some { s.takeMark 1 .value with mayOpenKey := s.flow = 0 }

/-- Adds a token that may be, or begin, a key. -/
def takeNode (s : Scanner) (scan : Cursor → Option (Token × Cursor)) : Option Scanner := do
  let s ← s.saveKey
  let (t, c) ← scan s.cursor
  return { s.enqueue t with cursor := c, mayOpenKey := false }

/-- Adds a block scalar, which is never a key. -/
def takeBlockScalar (s : Scanner) (literal : Bool) : Option Scanner := do
  let s ← s.dropKey
  let (t, c) ← scanBlock literal s.indent s.cursor
  return { s.enqueue t with cursor := c, mayOpenKey := true }

/-- Adds a plain scalar; after one that ends with its line a key may begin. -/
def takePlain (s : Scanner) : Option Scanner := do
  let s ← s.saveKey
  let (t, isBroken, c) ← scanPlain (0 < s.flow) (s.indent + 1).toNat s.cursor
  return { s.enqueue t with cursor := c, mayOpenKey := isBroken }

/-- Whether a plain scalar may begin with a character, before the rest of the text. -/
def startsPlain (inFlow : Bool) (c : Char) (rest : List Char) : Bool :=
  let indicators := ['-', '?', ':', ',', '[', ']', '\x7b', '\x7d', '#', '&', '*', '!', '|', '>',
    '\x27', '\x22', '%', '@', '`']
  !(isSpace c || indicators.contains c) || (c = '-' && !(rest.head?.any isBlank)) ||
    (!inFlow && (c = '?' || c = ':') && !endsWord rest)

/-- Adds the token that begins with a character, before the rest of the text. -/
def takeAt (s : Scanner) (c : Char) (rest : List Char) : Option Scanner :=
  let inFlow : Bool := 0 < s.flow
  if s.cursor.column = 0 && c = '%' then s.takeDirective
  else if s.cursor.atMarker then s.takeMarker (if c = '-' then .documentStart else .documentEnd)
  else if c = '[' then s.openFlow .flowSequenceStart
  else if c = '\x7b' then s.openFlow .flowMappingStart
  else if c = ']' then s.closeFlow .flowSequenceEnd
  else if c = '\x7d' then s.closeFlow .flowMappingEnd
  else if c = ',' then s.takeFlowEntry
  else if c = '-' && endsWord rest then s.takeBlockEntry
  else if c = '?' && (inFlow || endsWord rest) then s.takeKey
  else if c = ':' && (inFlow || endsWord rest) then s.takeValue
  else if c = '*' then s.takeNode (scanAnchor true)
  else if c = '&' then s.takeNode (scanAnchor false)
  else if c = '!' then s.takeNode (scanTag inFlow)
  else if c = '|' && !inFlow then s.takeBlockScalar true
  else if c = '>' && !inFlow then s.takeBlockScalar false
  else if c = '\x27' then s.takeNode (scanQuoted true)
  else if c = '\x22' then s.takeNode (scanQuoted false)
  else if startsPlain inFlow c rest then s.takePlain
  else none

/-- Adds the next token of the text to the queue, with what it brings along. -/
def takeNext (s : Scanner) : Option Scanner := do
  let s ← (s.skipSpace s.cursor.steps).dropStale
  let s := s.closeBlocks s.cursor.column
  match s.cursor.rest with
  | [] => s.takeEnd
  | c :: rest => s.takeAt c rest

/-! ### All tokens -/

/-- Whether the first token of the queue could still get another one in front. -/
def isWaiting (s : Scanner) : Bool :=
  s.queue.isEmpty || s.keys.any fun k => k.number = s.given

/-- Reads on until the first token of the queue is settled. -/
def settle : Nat → Scanner → Option Scanner
  | 0, _ => none
  | fuel + 1, s => do
    let s ← if s.queue.isEmpty then some s else s.dropStale
    if s.isWaiting then settle fuel (← s.takeNext) else return s

/-- The settled tokens from here on, up to the end of the text or a fault in it. -/
def tokensFrom : Nat → Scanner → List Token
  | 0, _ => []
  | fuel + 1, s =>
    match settle s.cursor.steps s with
    | none => []
    | some s => match s.queue with
      | [] => []
      | .streamEnd :: _ => [.streamEnd]
      | t :: rest => t :: tokensFrom fuel { s with queue := rest, given := s.given + 1 }

end Scanner

/-- The tokens of a text. The list ends with the end of the stream, or before a fault. -/
def tokens (cs : List Char) : List Token :=
  if cs.all isAllowed then Scanner.tokensFrom (4 * cs.length + 8) (.start cs) else []

end AbiLayout.Yaml
