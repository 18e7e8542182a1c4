/-!
# Paths

A path is the text that names it, and the parts between its slashes. Empty parts mean nothing, `.` means
the directory it stands in, `..` the one around it. A slash at the front says that the path starts from
the root, one at the end that a directory is meant.
-/

namespace AbiLayout.Files

def splitSlash : List Char → List (List Char)
  | [] => [[]]
  | c :: rest =>
    if c = '/' then [] :: splitSlash rest
    else match splitSlash rest with
      | [] => [[c]]
      | part :: parts => (c :: part) :: parts

def parts (path : String) : List String :=
  ((splitSlash path.toList).filter fun p => !p.isEmpty).map String.ofList

/-- A path has less than 4096 bytes. -/
def isLongPath (path : String) : Bool := 4096 ≤ path.utf8ByteSize

/-- A name has at most 255 bytes. -/
def isLongName (name : String) : Bool := 255 < name.utf8ByteSize

/-- A path that holds the zero character names nothing. -/
def holdsZero (path : String) : Bool := path.toList.contains '\x00'

/-- Whether a path starts from the root. -/
def isAbsolute (path : String) : Bool := path.toList.head? == some '/'

/-- Whether a path says that it means a directory. -/
def endsInSlash (path : String) : Bool := path.toList.getLast? == some '/'

/-- The parts of a path without the trailing ones that only say that a directory is meant. -/
def trimmedParts (path : String) : List String :=
  ((parts path).reverse.dropWhile (· == ".")).reverse

/-- The name at the end of a path, if it ends in a name. -/
def fileName? (path : String) : Option String :=
  match (trimmedParts path).getLast? with
  | some name => if name = ".." then none else some name
  | none => none

/-- What follows the last point of a name, unless the point begins the name. -/
def extensionOf (name : String) : Option String :=
  let back := name.toList.reverse
  let extension := back.takeWhile (· != '.')
  if extension.length + 1 < back.length then some (String.ofList extension.reverse) else none

def extension? (path : String) : Option String := (fileName? path).bind extensionOf

/-- A name inside a directory; a name that begins with a slash stands for itself. -/
def join (directory name : String) : String :=
  if isAbsolute name || directory.isEmpty then name
  else if endsInSlash directory then directory ++ name
  else directory ++ "/" ++ name

end AbiLayout.Files
