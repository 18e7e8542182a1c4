import AbiLayout.Cpp.Error

/-!
# Emissions

What a step of rendering leaves behind: the lines that it wrote, and its result. A step that fails
keeps the lines it had written before the fault, and nothing after a fault is written; so the lines
of a sequence are the lines of its parts up to the first that fails.
-/

namespace AbiLayout.Cpp

/-- Lines of text, each written with its line end. -/
def unlines (lines : List String) : String :=
  lines.foldl (fun text line => text ++ line ++ "\n") ""

theorem foldl_lines (start : String) (lines : List String) :
    lines.foldl (fun text line => text ++ line ++ "\n") start = start ++ unlines lines := by
  induction lines generalizing start with
  | nil => simp [unlines]
  | cons line rest ih =>
    simp only [unlines, List.foldl_cons]
    rw [ih, ih ("" ++ line ++ "\n")]
    simp [String.append_assoc]

theorem unlines_cons (line : String) (rest : List String) :
    unlines (line :: rest) = line ++ "\n" ++ unlines rest := by
  simp only [unlines, List.foldl_cons]
  rw [foldl_lines]
  simp [unlines]

theorem unlines_append (a b : List String) : unlines (a ++ b) = unlines a ++ unlines b := by
  simp only [unlines, List.foldl_append]
  exact foldl_lines _ b

/-- Lines written, and how the writing ended. -/
structure Emission (α : Type) where
  lines : List String
  result : Except RenderError α

namespace Emission

def value {α : Type} (a : α) : Emission α := ⟨[], .ok a⟩

/-- Runs the second step on the result of the first, unless the first failed. -/
def andThen {α β : Type} (first : Emission α) (next : α → Emission β) : Emission β :=
  match first.result with
  | .ok a => ⟨first.lines ++ (next a).lines, (next a).result⟩
  | .error e => ⟨first.lines, .error e⟩

instance : Monad Emission where
  pure := value
  bind := andThen

def line (text : String) : Emission Unit := ⟨[text], .ok ()⟩

def block (lines : List String) : Emission Unit := ⟨lines, .ok ()⟩

/-- Goes on with a value or stops at its fault; nothing is written. -/
def lift {α : Type} (r : Except RenderError α) : Emission α := ⟨[], r⟩

/-- Stops where there is a fault. -/
def check (fault : Option RenderError) : Emission Unit :=
  match fault with
  | some e => ⟨[], .error e⟩
  | none => ⟨[], .ok ()⟩

def text {α : Type} (e : Emission α) : String := unlines e.lines

end Emission

end AbiLayout.Cpp
