import AbiLayout.Run

/-!
# The program

A run is carried out on a copy of what the command can meet in the file system; what it changes there is
then carried back, before anything is said.
-/

namespace AbiLayout

open Files

def placePath (p : Place) : String := "/" ++ "/".intercalate p

def stepTo (p : Place) (part : String) : Place :=
  if part = "." then p else if part = ".." then p.dropLast else p ++ [part]

def placesAlong (p : Place) : List String → List Place
  | [] => [p]
  | part :: rest => p :: placesAlong (stepTo p part) rest

/-- Copies what stands at a place, if anything does; of a directory only that it is one. -/
def copyPlace (disk : Disk) (p : Place) : IO Disk := do
  let path := System.mkFilePath [placePath p]
  if (disk.get? p).isSome then return disk
  else if ← path.isDir then return disk.put p (.directory [])
  else if ← path.pathExists then return disk.put p (.file (← IO.FS.readBinFile path))
  else return disk

def copyPath (disk : Disk) (path : String) : IO Disk :=
  (placesAlong (disk.origin path) (parts path)).foldlM copyPlace disk

def copyTree (disk : Disk) (path : String) : IO Disk := do
  let disk ← copyPath disk path
  let root := System.mkFilePath [path]
  if ← root.isDir then
    (← root.walkDir).foldlM (fun disk found => copyPath disk found.toString) disk
  else return disk

def copyFor (disk : Disk) (command : CommandLine.Command) : IO Disk := do
  let disk ← command.sources.foldlM copyPath disk
  command.target?.toList.foldlM copyTree disk

def carryBack (before after : Disk) : IO Unit := do
  for (p, bytes) in after.root.listing do
    match bytes, before.get? p with
    | none, none => IO.FS.createDirAll (placePath p)
    | some new, some (.file old) => if new != old then IO.FS.writeBinFile (placePath p) new
    | some new, _ => IO.FS.writeBinFile (placePath p) new
    | none, some _ => pure ()

end AbiLayout

open AbiLayout in
def main (args : List String) : IO UInt32 := do
  let start := Files.Disk.startingIn (Files.parts (← IO.currentDir).toString)
  let before ← (CommandLine.parse args).toList.foldlM copyFor start
  let outcome := run before args
  carryBack before outcome.disk
  IO.print outcome.text
  IO.eprint outcome.errorText
  return outcome.exit.toUInt32
