import AbiLayout.Yaml.TokenStream
import AbiLayout.Yaml.Tree

/-!
# Reading YAML text

The tree that tokens describe, with references to the nodes that are anchored in it. Tokens that do not
go together, or that end too early, leave a broken node where the sense of the text ends.

An anchor gets a number, which is how many different names have been anchored before it; a reference
stands for the node that was anchored last under the number its name has at that time, be it before the
reference or after it. Only so many references are followed as keep the work in proportion to the text.
-/

namespace AbiLayout.Yaml

open Document

structure Anchors where
  numbers : List (String × Nat)
  /-- For each number the node that was anchored last: its place in the order of anchoring, and its tree
  as far as it has been read. -/
  nodes : Array (Nat × Tree)
  count : Nat

namespace Anchors

def empty : Anchors := ⟨[], #[], 0⟩

/-- Anchors one more node, whose tree is still to be read. -/
def define (a : Anchors) (name : String) : Anchors :=
  let number := a.numbers.length
  { numbers := (name, number) :: a.numbers.filter (·.1 != name)
    nodes := if h : number < a.nodes.size then a.nodes.set number (a.count, .broken) h
      else a.nodes.push (a.count, .broken)
    count := a.count + 1 }

/-- Notes the tree of the node that was anchored at some place in the order, under a number, unless
another node has got the number since. -/
def settle (a : Anchors) (number place : Nat) (n : Tree) : Anchors :=
  if h : number < a.nodes.size then
    if a.nodes[number].1 = place then { a with nodes := a.nodes.set number (place, n) h } else a
  else a

end Anchors

/-- What is left of the tokens, with the anchors met so far, the tag handles in force and what each
stands for, and how many nodes and ends of containers have been passed. -/
structure Rest where
  tokens : List Token
  anchors : Anchors
  handles : List (String × String)
  events : Nat

namespace Rest

/-- The next token, if there is one before the end or a fault. -/
def peek (r : Rest) : Option Token := r.tokens.head?

def skip (r : Rest) : Rest := { r with tokens := r.tokens.drop 1 }

def count (r : Rest) : Rest := { r with events := r.events + 1 }

/-- Whether the next token is one of a list. -/
def isAt (r : Rest) (ts : List Token) : Bool := r.peek.any ts.contains

end Rest

/-- Reads an anchor, if one stands here. -/
def takeAnchor (r : Rest) : Option String × Rest :=
  match r.peek with
  | some (.anchor name) => (some name, r.skip)
  | _ => (none, r)

/-- Reads a tag, if one stands here: its handle and its suffix. -/
def takeTag (r : Rest) : Option (String × String) × Rest :=
  match r.peek with
  | some (.tag handle suffix) => (some (handle, suffix), r.skip)
  | _ => (none, r)

/-- Reads the anchor and the tag of a node, in either order. -/
def takeProperties (r : Rest) : Option String × Option (String × String) × Rest :=
  match takeAnchor r with
  | (some name, r) =>
    let (tag, r) := takeTag r
    (some name, tag, r)
  | (none, r) =>
    let (tag, r) := takeTag r
    let (anchor, r) := if tag.isSome then takeAnchor r else (none, r)
    (anchor, tag, r)

/-- Reads a node that begins here, with its anchor, if it has one. -/
def anchored (name : Option String) (r : Rest) (body : Rest → Tree × Rest) : Tree × Rest :=
  match name with
  | none => body r.count
  | some name =>
    let (n, after) := body { r.count with anchors := r.anchors.define name }
    (n, { after with
      anchors := after.anchors.settle r.anchors.numbers.length r.anchors.count n })

/-- An empty scalar, as stands for a node that is left out. -/
def emptyNode (r : Rest) : Tree × Rest := (.scalar ⟨"", .plain, none⟩, r.count)

/-- The full text of a tag that may be there. A handle has to be known; without one the suffix is all. -/
def fullTag (handles : List (String × String)) : Option (String × String) → Option (Option String)
  | none => some none
  | some (handle, suffix) =>
    if handle.isEmpty then some (some suffix)
    else (handles.lookup handle).map fun lead => some (lead ++ suffix)

/-- The place after a fault: no tokens are left, not even the end of the stream. -/
def Rest.stop (r : Rest) : Rest := { r with tokens := [] }

/-- A scalar that stands here. The tag `!` alone says nothing. -/
def scalarNode (s : ScalarText) (tag : Option String) (r : Rest) : Tree × Rest :=
  (.scalar ⟨s.text, s.style, (tag.filter (· != "!")).map .ofText⟩, r.skip)

def withTag (tag : Option String) (n : Tree) : Tree :=
  if tag.map Tag.ofText = some .own then .tagged n else n

def sequenceOf (tag : Option String) (read : List Tree × Rest) : Tree × Rest :=
  (withTag tag (.sequence read.1), read.2)

def mappingOf (tag : Option String) (read : List (Tree × Tree) × Rest) : Tree × Rest :=
  (withTag tag (.mapping read.1), read.2)

/-- A node that is nothing but its anchor and its tag. -/
def bareNode (name tag : Option String) (r : Rest) : Tree × Rest :=
  if name.isSome || tag.isSome then
    anchored name r fun r => (.scalar ⟨"", .plain, tag.map .ofText⟩, r)
  else (.broken, r.stop)

mutual

/-- Reads a node. Block containers are welcome where `block` says so, and a sequence at the indentation
of its mapping where `indentless` does. -/
def readNode (block indentless : Bool) : Nat → Rest → Tree × Rest
  | 0, r => (.broken, r.stop)
  | fuel + 1, r =>
    match r.peek with
    | some (.reference name) =>
      match r.anchors.numbers.lookup name with
      | some number => (.reference number, r.skip.count)
      | none => (.broken, r.stop)
    | _ =>
      let (name, written, r) := takeProperties r
      match fullTag r.handles written with
      | none => (.broken, r.stop)
      | some tag =>
        match r.peek with
        | some (.scalar s) => anchored name r (scalarNode s tag)
        | some .flowSequenceStart =>
          anchored name r fun r => sequenceOf tag (readFlowSequence true fuel r.skip)
        | some .flowMappingStart =>
          anchored name r fun r => mappingOf tag (readFlowMapping true fuel r.skip)
        | some t =>
          if indentless && t = .blockEntry then
            anchored name r fun r => sequenceOf tag (readIndentless fuel r)
          else if block && t = .blockSequenceStart then
            anchored name r fun r => sequenceOf tag (readBlockSequence fuel r.skip)
          else if block && t = .blockMappingStart then
            anchored name r fun r => mappingOf tag (readBlockMapping fuel r.skip)
          else bareNode name tag r
        | none => (.broken, r)

def readOptional (block indentless : Bool) (before : List Token) : Nat → Rest → Tree × Rest
  | 0, r => (.broken, r.stop)
  | fuel + 1, r => if r.isAt before then emptyNode r else readNode block indentless fuel r

def readBlockSequence : Nat → Rest → List Tree × Rest
  | 0, r => ([.broken], r.stop)
  | fuel + 1, r =>
    match r.peek with
    | some .blockEntry =>
      let (n, r) := readOptional true false [.blockEntry, .blockEnd] fuel r.skip
      let (items, r) := readBlockSequence fuel r
      (n :: items, r)
    | some .blockEnd => ([], r.skip.count)
    | _ => ([.broken], r.stop)

/-- Reads the items of a sequence that stands at the indentation of its mapping. -/
def readIndentless : Nat → Rest → List Tree × Rest
  | 0, r => ([.broken], r.stop)
  | fuel + 1, r =>
    match r.peek with
    | some .blockEntry =>
      let (n, r) := readOptional true false [.blockEntry, .key, .value, .blockEnd] fuel r.skip
      let (items, r) := readIndentless fuel r
      (n :: items, r)
    | some _ => ([], r.count)
    | none => ([.broken], r)

def readBlockMapping : Nat → Rest → List (Tree × Tree) × Rest
  | 0, r => ([(.broken, .broken)], r.stop)
  | fuel + 1, r =>
    match r.peek with
    | some .key =>
      let (k, r) := readOptional true true [.key, .value, .blockEnd] fuel r.skip
      let (v, r) := readValue true [.key, .value, .blockEnd] fuel r
      let (entries, r) := readBlockMapping fuel r
      ((k, v) :: entries, r)
    | some .blockEnd => ([], r.skip.count)
    | _ => ([(.broken, .broken)], r.stop)

/-- Reads the value of an entry; it may be left out altogether, or after its mark before some tokens. -/
def readValue (block : Bool) (before : List Token) : Nat → Rest → Tree × Rest
  | 0, r => (.broken, r.stop)
  | fuel + 1, r =>
    match r.peek with
    | none => (.broken, r)
    | some .value => readOptional block block before fuel r.skip
    | some _ => emptyNode r

def readFlowSequence (first : Bool) : Nat → Rest → List Tree × Rest
  | 0, r => ([.broken], r.stop)
  | fuel + 1, r =>
    if r.isAt [.flowSequenceEnd] then ([], r.skip.count)
    else if !first && !r.isAt [.flowEntry] then ([.broken], r.stop)
    else
      let r := if first then r else r.skip
      if r.isAt [.flowSequenceEnd] then ([], r.skip.count)
      else if r.isAt [.key] then
        let (entry, r) := readFlowPair fuel r.skip.count
        let (items, r) := readFlowSequence false fuel r
        (.mapping [entry] :: items, r)
      else
        let (n, r) := readNode false false fuel r
        let (items, r) := readFlowSequence false fuel r
        (n :: items, r)

/-- Reads the entry of a mapping that is an item of a flow sequence, and the end of that mapping. -/
def readFlowPair : Nat → Rest → (Tree × Tree) × Rest
  | 0, r => ((.broken, .broken), r.stop)
  | fuel + 1, r =>
    let (k, r) := if r.isAt [.value, .flowEntry, .flowSequenceEnd] then emptyNode r.skip
      else readNode false false fuel r
    let (v, r) := readValue false [.flowEntry, .flowSequenceEnd] fuel r
    ((k, v), r.count)

def readFlowMapping (first : Bool) : Nat → Rest → List (Tree × Tree) × Rest
  | 0, r => ([(.broken, .broken)], r.stop)
  | fuel + 1, r =>
    if r.isAt [.flowMappingEnd] then ([], r.skip.count)
    else if !first && !r.isAt [.flowEntry] then ([(.broken, .broken)], r.stop)
    else
      let r := if first then r else r.skip
      if r.isAt [.flowMappingEnd] then ([], r.skip.count)
      else if r.isAt [.key] then
        let (k, r) := readOptional false false [.value, .flowEntry, .flowMappingEnd] fuel r.skip
        let (v, r) := readValue false [.flowEntry, .flowMappingEnd] fuel r
        let (entries, r) := readFlowMapping false fuel r
        ((k, v) :: entries, r)
      else
        let (k, r) := readNode false false fuel r
        let (v, r) := if r.tokens.isEmpty then (.broken, r) else emptyNode r
        let (entries, r) := readFlowMapping false fuel r
        ((k, v) :: entries, r)

end

/-- Reads the directives before a document: at most one version, which has to be known, and tag handles
that differ. Gives the handles with what they stand for. -/
def readDirectives : List Token → Bool → List (String × String) →
    Option (List (String × String) × List Token)
  | .version major minor :: rest, hasVersion, handles =>
    if hasVersion || major != 1 || (minor != 1 && minor != 2) then none
    else readDirectives rest true handles
  | .tagShorthand handle lead :: rest, hasVersion, handles =>
    if (handles.lookup handle).isSome then none
    else readDirectives rest hasVersion ((handle, lead) :: handles)
  | ts, _, handles => some (handles, ts)

/-- The tag handles of every document that does not give them another meaning. -/
def commonHandles : List (String × String) := [("!", "!"), ("!!", commonLead)]

/-- Whether only marks of the end follow a document. -/
def isStreamEnd : List Token → Bool
  | .documentEnd :: rest => isStreamEnd rest
  | [.streamEnd] => true
  | _ => false

/-- The root of the first document of a list of tokens, with what follows it. A text without documents
counts as an empty scalar. -/
def readRoot (ts : List Token) : Tree × Rest :=
  let fuel := 4 * ts.length + 8
  let rest (ts : List Token) (handles : List (String × String)) : Rest := ⟨ts, .empty, handles, 0⟩
  match ts with
  | [.streamEnd] => emptyNode (rest ts commonHandles)
  | .version _ _ :: _ | .tagShorthand _ _ :: _ | .documentStart :: _ =>
    match readDirectives ts false [] with
    | some (handles, .documentStart :: ts) =>
      let r := rest ts (handles ++ commonHandles)
      match r.peek with
      | some (.version _ _) | some (.tagShorthand _ _) | some .documentStart | some .documentEnd
        | some .streamEnd => emptyNode r
      | _ => readNode true false fuel r
    | _ => (.broken, rest [] commonHandles)
  | _ => readNode true false fuel (rest ts commonHandles)

/-- How many references are followed for each node of a text. -/
def repetition : Nat := 100

def readDocument (text : String) : Parsed Scalar :=
  let (root, rest) := readRoot (tokens text.toList)
  { root
    isWhole := isStreamEnd rest.tokens
    targets := rest.anchors.nodes.map (·.2)
    allowance := repetition * rest.events }

end AbiLayout.Yaml
