import AbiLayout.Proofs.Enumerations.Acceptance
import AbiLayout.Proofs.Enumerations.Lines
import Mathlib.Data.List.TakeWhile

/-!
# Tables among lines

Reports and headers list enumerators alike: a line that titles them, and under it rows that begin with
blanks and the name. Main statement: the lines of an enumeration are read as one table, whose rows are its
enumerators in order.
-/

namespace AbiLayout.Cpp

/-- A title with the first words of the rows under it. -/
structure Table where
  title : String
  names : List String
deriving DecidableEq

section

variable (title row : String → Bool)

/-- The tables among some lines: what stands under a title, as long as there are rows. -/
def tables : List String → List Table
  | [] => []
  | line :: rest =>
    if title line then ⟨line, (rest.takeWhile row).map firstWord⟩ :: tables rest else tables rest

/-- The lines begin with no row, so they do not carry on a table in front of them. -/
def Fresh (lines : List String) : Prop := ∀ line ∈ lines.head?, row line = false

variable {title row}

theorem fresh_cons {line : String} {rest : List String} (h : row line = false) :
    Fresh row (line :: rest) := by
  intro first hfirst
  rw [List.head?_cons, Option.mem_some_iff] at hfirst
  exact hfirst ▸ h

theorem fresh_nil : Fresh row [] := by
  intro _ hfirst
  cases hfirst

theorem fresh_of_forall {lines : List String} (h : ∀ line ∈ lines, row line = false) : Fresh row lines :=
  fun line hline => h line (List.mem_of_mem_head? hline)

theorem fresh_append {a b : List String} (ha : Fresh row a) (hb : Fresh row b) : Fresh row (a ++ b) := by
  cases a with
  | nil => exact hb
  | cons line rest => exact fresh_cons (ha line rfl)

theorem fresh_flatMap {α : Type} {f : α → List String} {l : List α} (h : ∀ x ∈ l, Fresh row (f x)) :
    Fresh row (l.flatMap f) := by
  induction l with
  | nil => exact fresh_nil
  | cons x rest ih =>
    rw [List.forall_mem_cons] at h
    exact fresh_append h.1 (ih h.2)

theorem takeWhile_append_of_fresh {a b : List String} (h : Fresh row b) :
    (a ++ b).takeWhile row = a.takeWhile row := by
  induction a with
  | nil =>
    cases b with
    | nil => rfl
    | cons line rest =>
      have hline := h line rfl
      exact List.takeWhile_cons_of_neg (Bool.eq_false_iff.1 hline)
  | cons line rest ih => rw [List.cons_append, List.takeWhile_cons, List.takeWhile_cons, ih]

theorem tables_append {a b : List String} (h : Fresh row b) :
    tables title row (a ++ b) = tables title row a ++ tables title row b := by
  induction a with
  | nil => rfl
  | cons line rest ih =>
    rw [List.cons_append, tables, tables, takeWhile_append_of_fresh h, ih]
    split
    · rfl
    · rfl

theorem tables_append_of_untitled {a : List String} (h : ∀ line ∈ a, title line = false)
    (b : List String) : tables title row (a ++ b) = tables title row b := by
  induction a with
  | nil => rfl
  | cons line rest ih =>
    rw [List.forall_mem_cons] at h
    rw [List.cons_append, tables, h.1, if_neg Bool.false_ne_true, ih h.2]

theorem tables_eq_nil {a : List String} (h : ∀ line ∈ a, title line = false) :
    tables title row a = [] := by
  have hall : tables title row (a ++ []) = tables title row [] := tables_append_of_untitled h []
  rwa [List.append_nil] at hall

theorem tables_flatMap {α : Type} {f : α → List String} {l : List α} (h : ∀ x ∈ l, Fresh row (f x)) :
    tables title row (l.flatMap f) = l.flatMap fun x => tables title row (f x) := by
  induction l with
  | nil => rfl
  | cons x rest ih =>
    rw [List.forall_mem_cons] at h
    rw [List.flatMap_cons, tables_append (fresh_flatMap h.2), ih h.2, List.flatMap_cons]

/-- A title with rows under it, and behind them lines that belong to no table. -/
theorem tables_table {line : String} {rows rest : List String} (hline : title line = true)
    (hrows : ∀ x ∈ rows, row x = true) (hfresh : Fresh row rest)
    (htitles : ∀ x ∈ rows ++ rest, title x = false) :
    tables title row (line :: rows ++ rest) = [⟨line, rows.map firstWord⟩] := by
  rw [List.cons_append, tables, hline, if_pos rfl, tables_eq_nil htitles, takeWhile_append_of_fresh hfresh,
    List.takeWhile_eq_self_iff.2 hrows]

end

/-! ### Enumerations in a header -/

/-- The tables of the enumerations among the lines of a header. -/
def declaredTables : List String → List Table := tables (beginsWith "enum class ") (beginsWith "  ")

/-- The line that opens an enumeration, and that closes it too if it is empty. -/
def Enumeration.headline (e : Enumeration) : String :=
  "enum class " ++ e.name ++ " : " ++ e.underlying ++ " \x7b" ++
    if e.enumerators.isEmpty then "\x7d;" else ""

/-- The lines behind the last enumerator. -/
def Enumeration.closing (e : Enumeration) : List String :=
  if e.enumerators.isEmpty then [""] else ["\x7d;", ""]

theorem Enumeration.lines_eq (width : Nat) (e : Enumeration) :
    e.lines width = e.headline :: e.enumerators.map (·.line width) ++ e.closing := by
  -- the equation of a definition with long texts is slow to state, so it is unfolded without one
  delta headline
  rw [lines, closing]
  cases hempty : e.enumerators.isEmpty with
  | false => simp
  | true => simp [List.isEmpty_iff.1 hempty]

theorem Enumeration.beginsWith_headline (e : Enumeration) : beginsWith "enum class " e.headline = true := by
  delta headline
  simp only [String.append_assoc]
  exact beginsWith_append _ _

theorem Enumerator.beginsWith_line {mark : String} (h : differ mark "  " = true) (width : Nat)
    (x : Enumerator) : beginsWith mark (x.line width) = false := by
  simp only [line, String.append_assoc]
  exact beginsWith_append_of_differ _ h

theorem Enumerator.beginsWith_blanks_line (width : Nat) (x : Enumerator) :
    beginsWith "  " (x.line width) = true := by
  simp only [line, String.append_assoc]
  exact beginsWith_append _ _

theorem Enumeration.fresh_operators (e : Enumeration) : Fresh (beginsWith "  ") e.operators := by
  rw [operators]
  split
  · simp only [binaryOperator, String.append_assoc]
    exact fresh_cons (beginsWith_append_of_differ _ (by decide))
  · exact fresh_nil

theorem Enumeration.declaredTables_lines (width : Nat) (e : Enumeration)
    (h : ∀ x ∈ e.enumerators, Text.isFragment x.name = true) :
    declaredTables (e.lines width ++ e.operators) =
      [⟨e.headline, e.enumerators.map Enumerator.name⟩] := by
  have hclosing : (∀ line ∈ e.closing, beginsWith "enum class " line = false) ∧
      Fresh (beginsWith "  ") e.closing := by
    rw [closing]
    split
    · exact ⟨by decide, fresh_cons (by decide)⟩
    · exact ⟨by decide, fresh_cons (by decide)⟩
  have hnames : (e.enumerators.map (·.line width)).map firstWord = e.enumerators.map Enumerator.name := by
    rw [List.map_map]
    exact List.map_congr_left fun x hx => x.firstWord_line width (h x hx)
  rw [e.lines_eq, List.append_assoc, ← hnames]
  refine tables_table e.beginsWith_headline ?_ (fresh_append hclosing.2 e.fresh_operators) ?_
  · rw [List.forall_mem_map]
    exact fun x _ => x.beginsWith_blanks_line width
  · rw [List.forall_mem_append, List.forall_mem_append, List.forall_mem_map]
    exact ⟨fun x _ => x.beginsWith_line (by decide) width, hclosing.1,
      e.operators_not_mark (by decide) (by decide) (by decide)⟩

end AbiLayout.Cpp
