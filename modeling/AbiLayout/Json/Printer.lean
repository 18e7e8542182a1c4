import AbiLayout.Json.Tree
import AbiLayout.Text.Quoted

/-!
# Writing JSON text

The indented form of a tree: one entry a line, two blanks for each level, and nothing between the
brackets of an empty container.
-/

namespace AbiLayout.Json

open Document

/-- One character of a string. Control characters without a short escape are written by their code. -/
def escapeChar (c : Char) : List Char :=
  if c = '\x22' then ['\\', '\x22']
  else if c = '\\' then ['\\', '\\']
  else if c = '\x08' then ['\\', 'b']
  else if c = '\x0c' then ['\\', 'f']
  else if c = '\n' then ['\\', 'n']
  else if c = '\r' then ['\\', 'r']
  else if c = '\t' then ['\\', 't']
  else if c.toNat < 0x10 then "\\u000".toList ++ Text.hexDigits c.toNat
  else if c.toNat < 0x20 then "\\u00".toList ++ Text.hexDigits c.toNat
  else [c]

def writeText (s : String) : String := "\"" ++ String.ofList (s.toList.flatMap escapeChar) ++ "\""

/-- A scalar; what denotes nothing is written as nothing. -/
def writeScalar : Scalar → String
  | .null => "null"
  | .boolean true => "true"
  | .boolean false => "false"
  | .integer n => n.repr
  | .real x => numberLayout.text x
  | .text s => writeText s
  | .unreadable => ""

def lineStart (level : Nat) : String := "\n" ++ String.ofList (List.replicate (2 * level) ' ')

mutual

/-- A tree whose first line is already indented. Tags, references and broken nodes have no written
form. -/
def writeNode (level : Nat) : Tree → String
  | .scalar s => writeScalar s
  | .sequence [] => "[]"
  | .sequence (n :: rest) =>
    "[" ++ lineStart (level + 1) ++ writeNode (level + 1) n ++ writeItems (level + 1) rest ++
      lineStart level ++ "]"
  | .mapping [] => "\x7b\x7d"
  | .mapping ((k, v) :: rest) =>
    "\x7b" ++ lineStart (level + 1) ++ writeNode (level + 1) k ++ ": " ++ writeNode (level + 1) v ++
      writeEntries (level + 1) rest ++ lineStart level ++ "\x7d"
  | .tagged content => writeNode level content
  | .reference _ => ""
  | .broken => ""

/-- The items after the first. -/
def writeItems (level : Nat) : List Tree → String
  | [] => ""
  | n :: rest => "," ++ lineStart level ++ writeNode level n ++ writeItems level rest

/-- The entries after the first. -/
def writeEntries (level : Nat) : List (Tree × Tree) → String
  | [] => ""
  | (k, v) :: rest =>
    "," ++ lineStart level ++ writeNode level k ++ ": " ++ writeNode level v ++
      writeEntries level rest

end

def write (t : Tree) : String := writeNode 0 t

end AbiLayout.Json
