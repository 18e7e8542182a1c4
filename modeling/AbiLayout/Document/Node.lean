import AbiLayout.Document.Fault

/-!
# Document trees

The tree that a text describes: scalars of the format, sequences and mappings. A text that stops being
well formed has a tree too, with a broken node where its sense ends. Whoever reads a tree in the order
of the text meets the broken node exactly if nothing before it is at fault; so the first fault in the
text is the one that is reported, whether it is one of form or one of content.

A format may let one place stand for another. Such a reference is a leaf with a number, and the document
says which tree belongs to the number; the reference may stand inside of that tree. And a container may
have a tag, which matters only where a choice is expected.
-/

namespace AbiLayout.Document

/-- A tree over the scalars of a format. -/
inductive Node (S : Type) where
  | scalar (s : S)
  | sequence (items : List (Node S))
  | mapping (entries : List (Node S × Node S))
  | tagged (content : Node S)
  | reference (number : Nat)
  | broken

instance (S : Type) : Inhabited (Node S) := ⟨.broken⟩

/-- The tree of a text, and whether nothing but blanks follows it. -/
structure Parsed (S : Type) where
  root : Node S
  isWhole : Bool
  /-- The trees that references stand for, by their numbers. -/
  targets : Array (Node S) := #[]
  /-- How many times a reference may be followed in reading the document. -/
  allowance : Nat := 0

namespace Node

variable {S : Type}

mutual

/-- Whether a tree has no broken node of its own; what references stand for does not count. -/
def intact : Node S → Bool
  | .scalar _ => true
  | .sequence items => intactAll items
  | .mapping entries => intactEntries entries
  | .tagged content => intact content
  | .reference _ => true
  | .broken => false

def intactAll : List (Node S) → Bool
  | [] => true
  | n :: rest => intact n && intactAll rest

def intactEntries : List (Node S × Node S) → Bool
  | [] => true
  | (k, v) :: rest => intact k && intact v && intactEntries rest

end

/-- A tree without a tag around it. -/
def untagged : Node S → Node S
  | .tagged content => content
  | n => n

end Node

end AbiLayout.Document
