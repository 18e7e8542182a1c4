/-!
# Trees of files

A file with its bytes, or a directory with its entries by their names. Main statement: what is put at a
place is what stands there.
-/

namespace AbiLayout.Files

/-- The names that lead to a place from a directory. -/
abbrev Place : Type := List String

inductive Entry where
  | file (bytes : ByteArray)
  | directory (entries : List (String × Entry))

instance : Inhabited Entry := ⟨.directory []⟩

def assign (name : String) (e : Entry) : List (String × Entry) → List (String × Entry)
  | [] => [(name, e)]
  | (other, f) :: rest =>
    if name = other then (name, e) :: rest else (other, f) :: assign name e rest

theorem lookup_assign (name : String) (e : Entry) (entries : List (String × Entry)) :
    (assign name e entries).lookup name = some e := by
  induction entries with
  | nil => simp [assign]
  | cons x rest ih =>
    obtain ⟨other, f⟩ := x
    by_cases h : name = other
    · simp [assign, h]
    · have hb : (name == other) = false := by simpa using h
      simp [assign, h, List.lookup_cons, hb, ih]

namespace Entry

/-- The entries of a directory; a file has none. -/
def entries : Entry → List (String × Entry)
  | directory entries => entries
  | file _ => []

def get? (e : Entry) : Place → Option Entry
  | [] => some e
  | name :: rest => (e.entries.lookup name).bind (·.get? rest)

/-- The tree with another entry at a place. Directories on the way are made where there are none. -/
def put (new : Entry) (e : Entry) : Place → Entry
  | [] => new
  | name :: rest =>
    directory (assign name (put new ((e.entries.lookup name).getD (directory [])) rest) e.entries)

theorem get?_put (new e : Entry) (p : Place) : (put new e p).get? p = some new := by
  induction p generalizing e with
  | nil => rfl
  | cons name rest ih =>
    simp only [put, get?]
    rw [show (directory (assign name (put new ((e.entries.lookup name).getD (directory [])) rest)
      e.entries)).entries = assign name _ e.entries from rfl, lookup_assign]
    exact ih _

mutual

/-- Everything below an entry, each directory before what it holds: the places, and the bytes of what is
a file. -/
def listing : Entry → List (Place × Option ByteArray)
  | file _ => []
  | directory entries => contents entries

def contents : List (String × Entry) → List (Place × Option ByteArray)
  | [] => []
  | (name, file bytes) :: rest => ([name], some bytes) :: contents rest
  | (name, directory entries) :: rest =>
    ([name], none) :: (contents entries).map (fun x => (name :: x.1, x.2)) ++ contents rest

end

end Entry

end AbiLayout.Files
