import AbiLayout.Document.Node

/-!
# Reading trees

How values are taken from a tree: texts, flags, machine words, optional values and sequences, structs
with named fields, and choices between named alternatives. A format only says what its scalars are; all
else is the same for every format. Reading follows the order of the tree and stops at the first fault.

A reference is followed where a value is read, and costs one of a limited number of times; what is
passed over is not followed.

A struct is described by its fields, and reading it gives a draft: a value for every field that the
tree holds. How deep containers may be nested is limited; a reader is handed the reader of what lies
inside only as long as the limit allows, and without it a container is refused.
-/

namespace AbiLayout.Document

structure Format (S : Type) where
  found : S → Except Fault Found
  /-- The text that a scalar is, if it can be one. -/
  text? : S → Option String
  flag? : S → Option Bool
  word? : S → Option UInt64
  wrongInteger : Int → Fault
  /-- Whether a scalar is null where a value may be left out. -/
  isNothing : S → Except Fault Bool
  /-- Whether a scalar has a tag that bars it from being a choice. -/
  isTagged : S → Bool
  /-- Whether a scalar stands for a container without entries. -/
  isHollow : S → Bool
  /-- Whether a struct may be written as a sequence of its fields. -/
  structAsSequence : Bool
  limit : Nat

/-- A value that is being read from a document: it may depend on the trees that references stand for,
and it uses up some of the times that they may be followed. -/
abbrev Reading (S α : Type) : Type := ReaderT (Array (Node S)) (StateT Nat (Except Fault)) α

variable {S : Type}

/-- The tree that is meant in a place: where a reference stands, the one that it stands for. -/
def follow : Node S → Reading S (Node S)
  | .reference number => do
    match (← get), (← read)[number]? with
    | allowance + 1, some target => do
      set allowance
      return target
    | _, _ => throw .malformed
  | n => return n

/-- The tree that is meant in a place, where a tag makes no difference. -/
def followUntagged (n : Node S) : Reading S (Node S) := do return (← follow n).untagged

/-- The outcome of a step that neither follows references nor looks at them. -/
def settled {α : Type} : Except Fault α → Reading S α
  | .ok a => return a
  | .error fault => throw fault

def Format.refuse (fmt : Format S) (expected : Expected) : Node S → Fault
  | .scalar s => match fmt.found s with
    | .ok found => .type found expected
    | .error fault => fault
  | .sequence _ => .type .sequence expected
  | .mapping _ => .type .mapping expected
  | .tagged _ => .type .tagged expected
  | .reference _ => .malformed
  | .broken => .malformed

/-- Reads a text where `expected` is asked for. -/
def Format.readTextAs (fmt : Format S) (expected : Expected) (n : Node S) : Reading S String := do
  let n ← followUntagged n
  match n with
  | .scalar s => match fmt.text? s with
    | some text => return text
    | none => throw (fmt.refuse expected n)
  | _ => throw (fmt.refuse expected n)

def Format.readText (fmt : Format S) (n : Node S) : Reading S String := fmt.readTextAs .text n

def Format.readFlag (fmt : Format S) (n : Node S) : Reading S Bool := do
  let n ← followUntagged n
  match n with
  | .scalar s => match fmt.flag? s with
    | some b => return b
    | none => throw (fmt.refuse .boolean n)
  | _ => throw (fmt.refuse .boolean n)

def Format.readWord (fmt : Format S) (n : Node S) : Reading S UInt64 := do
  let n ← followUntagged n
  match n with
  | .scalar s => match fmt.word? s, fmt.found s with
    | some w, _ => return w
    | none, .ok (.integer i) => throw (fmt.wrongInteger i)
    | none, _ => throw (fmt.refuse .word n)
  | _ => throw (fmt.refuse .word n)

def Format.readOptional {α : Type} (fmt : Format S) (reader : Node S → Reading S α) (n : Node S) :
    Reading S (Option α) := do
  let n ← followUntagged n
  let isNothing ← match n with
    | .scalar s => settled (fmt.isNothing s)
    | _ => pure false
  if isNothing then return none else return some (← reader n)

/-! ### Sequences -/

def readItems {α : Type} (reader : Node S → Reading S α) : List (Node S) → Reading S (List α)
  | [] => return []
  | n :: rest => do
    let a ← reader n
    let others ← readItems reader rest
    return a :: others

/-- Reads a sequence; `inner` reads an item, if the limit allows it. -/
def Format.readSequence {α : Type} (fmt : Format S) (inner : Option (Node S → Reading S α))
    (n : Node S) : Reading S (List α) := do
  let n ← followUntagged n
  match n with
  | .sequence items => match inner with
    | some reader => readItems reader items
    | none => throw .malformed
  | .scalar s => if fmt.isHollow s then return [] else throw (fmt.refuse .sequence n)
  | _ => throw (fmt.refuse .sequence n)

/-! ### Structs -/

/-- A struct: its fields, in the order of their declaration, each with a key and the type of its
value. -/
structure Shape where
  name : String
  Field : Type
  [decEq : DecidableEq Field]
  Value : Field → Type
  fields : List Field
  key : Field → String
  isRequired : Field → Bool

namespace Shape

instance (sh : Shape) : DecidableEq sh.Field := sh.decEq

def Draft (sh : Shape) : Type := (f : sh.Field) → Option (sh.Value f)

def blank (sh : Shape) : sh.Draft := fun _ => none

def field? (sh : Shape) (key : String) : Option sh.Field := sh.fields.find? fun f => sh.key f == key

end Shape

def Shape.Draft.set {sh : Shape} (d : sh.Draft) (f : sh.Field) (value : sh.Value f) : sh.Draft :=
  fun g => if h : f = g then some (h ▸ value) else d g

def Shape.Draft.required {sh : Shape} (d : sh.Draft) (f : sh.Field) : Reading S (sh.Value f) :=
  match d f with
  | some value => return value
  | none => throw (.mismatch (.missingField (sh.key f)))

abbrev Shape.Reader (sh : Shape) (S : Type) : Type :=
  (f : sh.Field) → Node S → Reading S (sh.Value f)

/-- Passes over a tree without looking at its values. -/
def pass (n : Node S) : Reading S Unit := if n.intact then return () else throw .malformed

/-- Reads the entries of a mapping into a draft. Keys that name no field are passed over, and a field
cannot be given twice. -/
def Format.readEntries (fmt : Format S) (sh : Shape) (reader : sh.Reader S) :
    List (Node S × Node S) → sh.Draft → Reading S sh.Draft
  | [], draft => return draft
  | (k, v) :: rest, draft => do
    let key ← fmt.readTextAs .fieldName k
    match sh.field? key with
    | none => do
      pass v
      fmt.readEntries sh reader rest draft
    | some f =>
      if (draft f).isSome then throw (.mismatch (.duplicateField key))
      else do
        let value ← reader f v
        fmt.readEntries sh reader rest (draft.set f value)

/-- Reads the items of a sequence into a draft, field by field. Only fields that need not be given may
be absent at the end, and nothing may follow the last field. -/
def readPositions (sh : Shape) (reader : sh.Reader S) :
    List sh.Field → List (Node S) → Nat → sh.Draft → Reading S sh.Draft
  | [], items, _, draft => if items.isEmpty then return draft else throw .malformed
  | f :: fields, [], position, draft =>
    if sh.isRequired f then
      throw (.mismatch (.invalidLength position (.structOfSize sh.name sh.fields.length)))
    else readPositions sh reader fields [] (position + 1) draft
  | f :: fields, n :: items, position, draft => do
    let value ← reader f n
    readPositions sh reader fields items (position + 1) (draft.set f value)

/-- Reads a struct into a draft; `inner` reads its fields, if the limit allows it. -/
def Format.readStruct (fmt : Format S) (sh : Shape) (inner : Option (sh.Reader S)) (n : Node S) :
    Reading S sh.Draft := do
  let n ← followUntagged n
  match n with
  | .mapping entries => match inner with
    | some reader => fmt.readEntries sh reader entries sh.blank
    | none => throw .malformed
  | .sequence items =>
    if fmt.structAsSequence then match inner with
      | some reader => readPositions sh reader sh.fields items 0 sh.blank
      | none => throw .malformed
    else throw (fmt.refuse (.struct sh.name) n)
  | .scalar s => if fmt.isHollow s then return sh.blank else throw (fmt.refuse (.struct sh.name) n)
  | _ => throw .malformed

/-! ### Choices -/

structure Choice (T : Type) where
  name : String
  all : List T
  key : T → String

def Choice.pick {T : Type} (c : Choice T) (name : String) : Reading S T :=
  match c.all.find? fun t => c.key t == name with
  | some t => return t
  | none => throw (.mismatch (.unknownChoice name (c.all.map c.key)))

/-- Passes over a key, which has to be a text where it is a scalar. -/
def Format.passKey (fmt : Format S) : Node S → Reading S Unit
  | .scalar s => if (fmt.text? s).isSome then return () else throw .malformed
  | n => pass n

/-- Reads the only entry of a mapping that makes a choice. -/
def Format.readChoiceEntry {T α : Type} (fmt : Format S) (c : Choice T) (bare : T → Option α)
    (content : T → Node S → Reading S α) : List (Node S × Node S) → Reading S α
  | [] => throw (.mismatch (.invalidValue .mapping .singleEntry))
  | (k, v) :: rest => do
    let t ← c.pick (← fmt.readTextAs .choiceName k)
    match bare t with
    | some _ => throw (.type .mapping .bareChoice)
    | none => do
      let a ← content t v
      match rest with
      | [] => return a
      | (second, _) :: _ => do
        fmt.passKey second
        throw (.mismatch (.invalidValue .mapping .singleEntry))

/-- Reads a choice. `bare` gives the values of the alternatives without content, which are written as
their name alone; the others are a mapping from the name to the content, which `content` reads, if the
limit allows it. -/
def Format.readChoice {T α : Type} (fmt : Format S) (c : Choice T) (bare : T → Option α)
    (content : Option (T → Node S → Reading S α)) (n : Node S) : Reading S α := do
  let n ← follow n
  match n with
  | .scalar s =>
    if fmt.isTagged s then throw (.type .tagged (.choice c.name))
    else match fmt.found s with
      | .ok (.text name) => do
        match bare (← c.pick name) with
        | some a => return a
        | none => throw (.type .bareChoice .choiceWithContent)
      | _ => throw (fmt.refuse (.choice c.name) n)
  | .tagged _ => throw (fmt.refuse (.choice c.name) n)
  | .mapping entries => match content with
    | some reader => fmt.readChoiceEntry c bare reader entries
    | none => throw .malformed
  | .sequence _ => throw (if content.isSome then fmt.refuse (.choice c.name) n else .malformed)
  | _ => throw .malformed

/-! ### Documents -/

def Parsed.read {α : Type} (doc : Parsed S) (reader : Node S → Reading S α) : Except Fault α := do
  let a ← ((reader doc.root).run doc.targets).run' doc.allowance
  if doc.isWhole then return a else throw .malformed

end AbiLayout.Document
