import AbiLayout.Proofs.Headers.Lines
import AbiLayout.Proofs.Names.Declarable

/-!
# Lines of enumerations

What can be read off the line of an enumerator: its name, which is the first word, and the column of the
sign of equality. Main statements: the first word of a line is the name that it was written for, the signs
of equality of all declared values stand in one column, behind the widest of their names, and the lines
that open an operator are those of a flags type alone.
-/

namespace AbiLayout.Cpp

open Text (isFragment isNameChar)

theorem isFragment_mangle (name : String) : isFragment (mangle name) = true :=
  ((Text.isIdentifier_iff _).1 (mangle_declarable name).identifier).1

theorem isFragment_generatedValue (v : NamedValue) : isFragment (generatedValue v) = true :=
  isFragment_mangle v.name

theorem ne_of_isFragment {name : String} (h : isFragment name = true) {mark : Char}
    (hmark : isNameChar mark = false) : ∀ c ∈ name.toList, c ≠ mark := by
  intro c hc heq
  have hname := Text.isNameChar_of_isFragment h c hc
  rw [heq, hmark] at hname
  cases hname

/-! ### The first word of a line -/

def firstWord (line : String) : String :=
  String.ofList ((line.toList.dropWhile (· == ' ')).takeWhile (· != ' '))

theorem takeWhile_word {word : List Char} (h : ∀ c ∈ word, c ≠ ' ') (rest : List Char) :
    (word ++ ' ' :: rest).takeWhile (· != ' ') = word := by
  have hall : ∀ c ∈ word, (c != ' ') = true := by simpa using h
  rw [List.takeWhile_append_of_pos hall, List.takeWhile_cons_of_neg (by decide), List.append_nil]

/-- A name behind blanks and in front of one is the first word of its line. -/
theorem firstWord_eq {line name : String} {blanks rest : List Char} (hname : isFragment name = true)
    (hblanks : blanks.all (· == ' ') = true) (hline : line.toList = blanks ++ name.toList ++ ' ' :: rest) :
    firstWord line = name := by
  obtain ⟨hne, _⟩ := (Text.isFragment_iff name).1 hname
  have hword : ∀ c ∈ name.toList, c ≠ ' ' := ne_of_isFragment hname (by decide)
  rw [firstWord, hline, List.append_assoc, List.dropWhile_append_of_pos (List.all_eq_true.1 hblanks)]
  cases hchars : name.toList with
  | nil => exact absurd hchars hne
  | cons c others =>
    have hstart : c ≠ ' ' := hword c (hchars ▸ List.mem_cons_self ..)
    rw [List.cons_append, List.dropWhile_cons_of_neg (by simpa using hstart), ← List.cons_append, ← hchars,
      takeWhile_word hword, String.ofList_toList]

theorem toList_pad (width : Nat) (name : String) :
    (pad width name).toList = name.toList ++ List.replicate (width - name.length) ' ' := by
  rw [pad, String.toList_append, String.toList_ofList]

theorem Enumerator.toList_line (width : Nat) (x : Enumerator) :
    (x.line width).toList = "  ".toList ++ x.name.toList ++
      List.replicate (width - x.name.length + 1) ' ' ++ '=' :: (" " ++ x.constant ++ ",").toList := by
  have hequals : " = ".toList = ' ' :: '=' :: " ".toList := rfl
  simp only [line, String.toList_append, toList_pad, hequals, List.replicate_succ', List.append_assoc,
    List.cons_append, List.nil_append]

theorem Enumerator.firstWord_line (width : Nat) (x : Enumerator) (h : isFragment x.name = true) :
    firstWord (x.line width) = x.name := by
  have hline : (x.line width).toList = "  ".toList ++ x.name.toList ++ ' ' ::
      (List.replicate (width - x.name.length) ' ' ++ '=' :: (" " ++ x.constant ++ ",").toList) := by
    rw [x.toList_line, List.replicate_succ, List.append_assoc _ (' ' :: _), List.cons_append]
  exact firstWord_eq h (by decide) hline

/-! ### The column of the sign of equality -/

def equalsColumn (line : String) : Nat := line.toList.idxOf '='

theorem Enumerator.equalsColumn_line (width : Nat) (x : Enumerator) (h : isFragment x.name = true) :
    equalsColumn (x.line width) = max width x.name.length + 3 := by
  have hname : ∀ c ∈ x.name.toList, c ≠ '=' := ne_of_isFragment h (by decide)
  have hfront : '=' ∉ "  ".toList ++ x.name.toList ++
      List.replicate (width - x.name.length + 1) ' ' := by
    simp only [List.mem_append, List.mem_replicate, not_or]
    exact ⟨⟨by decide, fun hm => hname '=' hm rfl⟩, fun hm => absurd hm.2 (by decide)⟩
  rw [equalsColumn, x.toList_line, List.idxOf_append_of_notMem hfront, List.idxOf_cons_self]
  simp only [List.length_append, List.length_replicate, String.length_toList]
  have hblanks : "  ".length = 2 := rfl
  omega

theorem le_foldl_max (widths : List Nat) (start : Nat) :
    start ≤ widths.foldl max start ∧ ∀ n ∈ widths, n ≤ widths.foldl max start := by
  induction widths generalizing start with
  | nil => simp
  | cons n rest ih =>
    obtain ⟨hstart, hrest⟩ := ih (max start n)
    rw [List.foldl_cons, List.forall_mem_cons]
    exact ⟨by omega, by omega, hrest⟩

theorem foldl_max_mem (widths : List Nat) (start : Nat) :
    widths.foldl max start = start ∨ widths.foldl max start ∈ widths := by
  induction widths generalizing start with
  | nil => exact .inl rfl
  | cons n rest ih =>
    rw [List.foldl_cons, List.mem_cons]
    rcases ih (max start n) with h | h
    · rw [h]
      omega
    · exact .inr (.inr h)

theorem length_le_valueWidth {e : IntLike} {v : NamedValue} (h : v ∈ e.values) :
    (generatedValue v).length ≤ valueWidth e :=
  (le_foldl_max _ 0).2 _ (List.mem_map.2 ⟨v, h, rfl⟩)

/-- The width of the names is that of one of them. -/
theorem exists_length_eq_valueWidth {e : IntLike} (h : e.values ≠ []) :
    ∃ v ∈ e.values, (generatedValue v).length = valueWidth e := by
  rcases foldl_max_mem (e.values.map fun v => (generatedValue v).length) 0 with hzero | hmem
  · -- a width of zero is that of any value
    obtain ⟨v, hv⟩ := List.exists_mem_of_ne_nil _ h
    have hle := length_le_valueWidth hv
    rw [valueWidth, hzero] at hle
    exact ⟨v, hv, by rw [valueWidth, hzero]; omega⟩
  · obtain ⟨v, hv, hlength⟩ := List.mem_map.1 hmem
    exact ⟨v, hv, hlength⟩

/-! ### Operators -/

/-- What the line that opens an operator begins with. -/
def operatorMark : String := "inline "

def binaryHead (name op : String) : String :=
  "inline " ++ name ++ " operator " ++ op ++ " (" ++ name ++ " a, " ++ name ++ " b) \x7b"

def complementHead (name : String) : String := "inline " ++ name ++ " operator ~ (" ++ name ++ " v) \x7b"

/-- The lines that open the operators of a flags type. -/
def operatorHeads (name : String) : List String :=
  [binaryHead name "|", binaryHead name "&", complementHead name]

theorem filter_operatorBlock (head body : String) (hhead : beginsWith operatorMark head = true) :
    [head, "  return " ++ body, "\x7d", ""].filter (beginsWith operatorMark) = [head] := by
  have hbody : beginsWith operatorMark ("  return " ++ body) = false :=
    beginsWith_append_of_differ body (by decide)
  have hclose : ["\x7d", ""].filter (beginsWith operatorMark) = [] := by decide
  rw [List.filter_cons_of_pos hhead, List.filter_cons, hbody, if_neg Bool.false_ne_true, hclose]

theorem filter_binaryOperator (name underlying op : String) :
    (binaryOperator name underlying op).filter (beginsWith operatorMark) = [binaryHead name op] := by
  have hhead : beginsWith operatorMark (binaryHead name op) = true := by
    delta binaryHead
    simp only [String.append_assoc]
    exact beginsWith_append operatorMark _
  have hblock : binaryOperator name underlying op = [binaryHead name op, "  return " ++ (name ++ "(" ++
      underlying ++ "(a) " ++ op ++ " " ++ underlying ++ "(b));"), "\x7d", ""] := by
    delta binaryOperator binaryHead
    simp only [String.append_assoc]
  rw [hblock]
  exact filter_operatorBlock _ _ hhead

theorem filter_complementOperator (name underlying : String) :
    (complementOperator name underlying).filter (beginsWith operatorMark) = [complementHead name] := by
  have hhead : beginsWith operatorMark (complementHead name) = true := by
    delta complementHead
    simp only [String.append_assoc]
    exact beginsWith_append operatorMark _
  have hblock : complementOperator name underlying = [complementHead name, "  return " ++ (name ++ "(~" ++
      underlying ++ "(v));"), "\x7d", ""] := by
    delta complementOperator complementHead
    simp only [String.append_assoc]
  rw [hblock]
  exact filter_operatorBlock _ _ hhead

theorem Enumeration.filter_operators (e : Enumeration) :
    e.operators.filter (beginsWith operatorMark) = if e.flags then operatorHeads e.name else [] := by
  rw [operators]
  split
  · rw [List.filter_append, List.filter_append, filter_binaryOperator, filter_binaryOperator,
      filter_complementOperator]
    rfl
  · rfl

theorem Enumeration.lines_not_operatorMark (width : Nat) (e : Enumeration) :
    ∀ line ∈ e.lines width, beginsWith operatorMark line = false :=
  e.lines_not_mark (by decide) (by decide) (by decide) width

/-- Behind an enumeration exactly the operators of a flags type are opened. -/
theorem Enumeration.filter_operatorMark (width : Nat) (e : Enumeration) :
    (e.lines width ++ e.operators).filter (beginsWith operatorMark) =
      if e.flags then operatorHeads e.name else [] := by
  have hlines : (e.lines width).filter (beginsWith operatorMark) = [] := by
    rw [List.filter_eq_nil_iff]
    intro line hline
    rw [e.lines_not_operatorMark width line hline]
    exact Bool.false_ne_true
  rw [List.filter_append, hlines, e.filter_operators, List.nil_append]

end AbiLayout.Cpp
