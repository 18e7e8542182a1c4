import AbiLayout.Files.Entry
import AbiLayout.Files.Path

/-!
# The files that a run sees

A tree of files, and the place of the directory that relative paths start from. Reading, writing and
making directories fail for the reasons that an operating system gives, and a failed step changes
nothing.

The tree holds plain files and directories. Links, permissions, special files and limits of space are left
out, so different places hold different files, and no step is refused for want of rights or of room. What
is said here of the files at two paths holds of such trees alone: where a link makes two places share one
file, writing to either of them changes both.
-/

namespace AbiLayout.Files

inductive FileError where
  | notFound
  | exists
  | notDirectory
  | isDirectory
  | nameTooLong
  | notText
  | zeroByte
deriving DecidableEq, Repr

def FileError.message : FileError → String
  | notFound => "No such file or directory (os error 2)"
  | «exists» => "File exists (os error 17)"
  | notDirectory => "Not a directory (os error 20)"
  | isDirectory => "Is a directory (os error 21)"
  | nameTooLong => "File name too long (os error 36)"
  | notText => "stream did not contain valid UTF-8"
  | zeroByte => "file name contained an unexpected NUL byte"

/-- A tree of files, and the place that relative paths start from. -/
structure Disk where
  start : Place
  root : Entry

namespace Disk

def get? (d : Disk) (p : Place) : Option Entry := d.root.get? p

def put (d : Disk) (p : Place) (e : Entry) : Disk := { d with root := .put e d.root p }

/-- The tree that holds only a directory to start from and those around it. -/
def startingIn (p : Place) : Disk := ⟨p, .put (.directory []) (.directory []) p⟩

def origin (d : Disk) (path : String) : Place := if isAbsolute path then [] else d.start

/-! ### Walks -/

/-- The entries that have been gone through below the root, the last one first. -/
abbrev Trail : Type := List (String × Entry)

def here (d : Disk) : Trail → Entry
  | [] => d.root
  | (_, e) :: _ => e

def place (t : Trail) : Place := (t.map (·.1)).reverse

def find? (entries : List (String × Entry)) (name : String) : Except FileError (Option Entry) :=
  if isLongName name then .error .nameTooLong else .ok (entries.lookup name)

/-- Goes on along parts of a path. Whatever is left behind has to be a directory. -/
def walkFrom (d : Disk) (t : Trail) : List String → Except FileError Trail
  | [] => .ok t
  | part :: rest =>
    match d.here t with
    | .file _ => .error .notDirectory
    | .directory entries =>
      if part = "." then d.walkFrom t rest
      else if part = ".." then d.walkFrom t.tail rest
      else do
        match ← find? entries part with
        | some e => d.walkFrom ((part, e) :: t) rest
        | none => throw .notFound

def walk (d : Disk) (parts : List String) : Except FileError Trail := d.walkFrom [] parts

/-- Goes along parts of a path to a directory, and gives its place and its entries. -/
def enter (d : Disk) (parts : List String) : Except FileError (Place × List (String × Entry)) := do
  let t ← d.walk parts
  match d.here t with
  | .directory entries => return (place t, entries)
  | .file _ => throw .notDirectory

/-! ### Reading -/

def readBytes (d : Disk) (path : String) : Except FileError ByteArray :=
  if holdsZero path then .error .zeroByte
  else if isLongPath path then .error .nameTooLong
  else if path.isEmpty then .error .notFound
  else do
    let t ← d.walk (d.origin path ++ parts path ++ (if endsInSlash path then ["."] else []))
    match d.here t with
    | .directory _ => throw .isDirectory
    | .file bytes => return bytes

def readText (d : Disk) (path : String) : Except FileError String := do
  match String.fromUTF8? (← d.readBytes path) with
  | some text => return text
  | none => throw .notText

/-! ### Directories -/

/-- Makes one directory, in one that is there; the names of its path have the last one first. -/
def makeDirectory (d : Disk) (origin : Place) : List String → Except FileError Disk
  | [] => .error .exists
  | last :: outer => do
    let (around, entries) ← d.enter (origin ++ outer.reverse)
    if last = "." || last = ".." then throw .exists
    else match ← find? entries last with
      | some _ => throw .exists
      | none => return d.put (around ++ [last]) (.directory [])

/-- Makes a directory unless it is there. -/
def ensureDirectory (d : Disk) (origin : Place) (path : List String) : Except FileError Disk :=
  match d.makeDirectory origin path with
  | .ok d => .ok d
  | .error e =>
    match d.enter (origin ++ path.reverse) with
    | .ok _ => .ok d
    | .error _ => .error e

/-- The paths of the directories around a path, the innermost first, where each path has its last name
first. A path that ends in `.` names what the path without it names, and is left out. -/
def enclosing : List String → List (List String)
  | [] => []
  | name :: outer => if name = "." then enclosing outer else (name :: outer) :: enclosing outer

/-- Makes the first directory of a list, and before it those of the rest as far as they are missing.
Directories made before a failure stay. -/
def ensureDirectories (d : Disk) (origin : Place) :
    List (List String) → Disk × Except FileError Unit
  | [] => (d, .ok ())
  | path :: around =>
    match d.ensureDirectory origin path with
    | .ok d => (d, .ok ())
    | .error .notFound =>
      match d.ensureDirectories origin around with
      | (d, .error e) => (d, .error e)
      | (d, .ok ()) =>
        match d.ensureDirectory origin path with
        | .ok d => (d, .ok ())
        | .error e => (d, .error e)
    | .error e => (d, .error e)

/-- Makes the directory of a path, with all that are missing around it. -/
def makeDirectories (d : Disk) (path : String) : Disk × Except FileError Unit :=
  if holdsZero path then (d, .error .zeroByte)
  else if isLongPath path then (d, .error .nameTooLong)
  else match (parts path).reverse with
    | [] => (d, .ok ())
    | names => d.ensureDirectories (d.origin path)
      (names :: enclosing (names.dropWhile (· == ".")).tail)

/-! ### Writing -/

/-- Writes a file, in a directory that is there. -/
def writeBytes (d : Disk) (path : String) (bytes : ByteArray) : Except FileError Disk :=
  if holdsZero path then .error .zeroByte
  else if isLongPath path then .error .nameTooLong
  else match (parts path).reverse with
    | [] => .error (if path.isEmpty then .notFound else .isDirectory)
    | last :: outer => do
      let (around, entries) ← d.enter (d.origin path ++ outer.reverse)
      if endsInSlash path || last = "." || last = ".." then throw .isDirectory
      else match ← find? entries last with
        | some (.directory _) => throw .isDirectory
        | _ => return d.put (around ++ [last]) (.file bytes)

def writeText (d : Disk) (path text : String) : Except FileError Disk :=
  d.writeBytes path text.toUTF8

end Disk

end AbiLayout.Files
