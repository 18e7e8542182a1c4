import AbiLayout.Proofs.Headers.Pieces

/-!
# Lines of headers

What kind of declaration a line belongs to is read off its first characters. Main statements: of the
lines of a record's definition one opens the record, and those of the offset assertions are one for
each shared offset; of the lines of a light declaration only the announcement of a record begins like a
record.
-/

namespace AbiLayout.Cpp

/-- The line begins with the mark. -/
def beginsWith (mark line : String) : Bool := mark.toList.isPrefixOf line.toList

/-- The texts differ at a place that both have. -/
def differ (a b : String) : Bool := (a.toList.zip b.toList).any fun p => p.1 != p.2

theorem beginsWith_append (mark rest : String) : beginsWith mark (mark ++ rest) = true := by
  rw [beginsWith, List.isPrefixOf_iff_prefix, String.toList_append]
  exact List.prefix_append _ _

theorem isPrefixOf_append_of_differ {mark start : List Char} (rest : List Char)
    (h : (mark.zip start).any (fun p => p.1 != p.2) = true) :
    mark.isPrefixOf (start ++ rest) = false := by
  induction mark generalizing start with
  | nil => simp at h
  | cons c mark ih =>
    cases start with
    | nil => simp at h
    | cons d start =>
      rw [List.zip_cons_cons, List.any_cons, Bool.or_eq_true] at h
      rw [List.cons_append, List.isPrefixOf, Bool.and_eq_false_iff]
      rcases h with h | h
      · have hne : (c == d) = false := by simpa [bne] using h
        exact .inl hne
      · exact .inr (ih h)

theorem beginsWith_append_of_differ {mark start : String} (rest : String)
    (h : differ mark start = true) : beginsWith mark (start ++ rest) = false := by
  rw [beginsWith, String.toList_append]
  exact isPrefixOf_append_of_differ rest.toList h

/-! ### Definitions of records -/

theorem Body.allIndented (depth : Nat) (bs : List Body) :
    ∀ line ∈ Body.linesAll (depth + 1) bs, ∃ rest, line = "  " ++ rest := by
  intro line hline
  rw [Body.linesAll_succ, List.mem_map] at hline
  obtain ⟨rest, _, rfl⟩ := hline
  exact ⟨rest, rfl⟩

/-- A mark that does not begin with blanks begins no line of a body. -/
theorem Body.filter_linesAll {mark : String} (h : differ mark "  " = true) (bs : List Body) :
    (Body.linesAll 1 bs).filter (beginsWith mark) = [] := by
  rw [List.filter_eq_nil_iff]
  intro line hline
  obtain ⟨rest, rfl⟩ := Body.allIndented 0 bs line hline
  rw [beginsWith_append_of_differ rest h]
  exact Bool.false_ne_true

/-- What the line that opens a record begins with. -/
def recordMark : String := "struct "

/-- What the line of an offset assertion begins with. -/
def offsetMark : String := "static_assert(offsetof("

theorem equalityAssertion_eq (left right : String) :
    equalityAssertion left right = "static_assert(" ++ left ++ " == " ++ right ++ ", \"\");" := rfl

theorem offsetAssertion_eq_mark_append (name cname : String) (o : SharedOffset) :
    ∃ rest, offsetAssertion name cname o = offsetMark ++ rest := by
  refine ⟨name ++ ", " ++ o.generated ++ ")" ++ " == " ++ ("offsetof(" ++ cname ++ ", " ++
    o.canonical ++ ")") ++ ", \"\");", ?_⟩
  have hmark : offsetMark = "static_assert(" ++ "offsetof(" := rfl
  rw [hmark, offsetAssertion, equalityAssertion_eq]
  simp only [String.append_assoc]

theorem beginsWith_equality_of_differ {mark what : String} (name cname : String)
    (h : differ mark ("static_assert(" ++ what) = true) :
    beginsWith mark (equalityAssertion (what ++ name ++ ")") (what ++ cname ++ ")")) = false := by
  have hline : equalityAssertion (what ++ name ++ ")") (what ++ cname ++ ")") =
      "static_assert(" ++ what ++ (name ++ ")" ++ " == " ++ (what ++ cname ++ ")") ++ ", \"\");") := by
    simp only [equalityAssertion_eq, String.append_assoc]
  rw [hline]
  exact beginsWith_append_of_differ _ h

/-- Of a definition, a mark can only begin the first line and the offset assertions. -/
theorem RecordDefinition.filter_lines (d : RecordDefinition) {mark : String}
    (hblank : differ mark "  " = true) (hsize : differ mark ("static_assert(" ++ "sizeof(") = true)
    (halign : differ mark ("static_assert(" ++ "alignof(") = true)
    (hclose : beginsWith mark "\x7d;" = false) (hend : beginsWith mark "" = false) :
    d.lines.filter (beginsWith mark) = ["struct " ++ d.name ++ " \x7b"].filter (beginsWith mark) ++
      (d.offsets.map (offsetAssertion d.name d.cname)).filter (beginsWith mark) := by
  have hbody := Body.filter_linesAll hblank d.body
  have hsizes := beginsWith_equality_of_differ d.name d.cname hsize
  have haligns := beginsWith_equality_of_differ d.name d.cname halign
  rw [RecordDefinition.lines, ← List.singleton_append]
  simp only [List.filter_append, hbody, List.filter_cons, List.filter_nil, hclose, hsizes, haligns, hend,
    Bool.false_eq_true, if_false, List.append_nil]

theorem RecordDefinition.filter_recordMark (d : RecordDefinition) :
    d.lines.filter (beginsWith recordMark) = ["struct " ++ d.name ++ " \x7b"] := by
  have hopen : beginsWith recordMark ("struct " ++ d.name ++ " \x7b") = true := by
    rw [String.append_assoc]
    exact beginsWith_append recordMark _
  have hoffsets : (d.offsets.map (offsetAssertion d.name d.cname)).filter (beginsWith recordMark) =
      [] := by
    rw [List.filter_eq_nil_iff]
    intro line hline
    obtain ⟨o, _, rfl⟩ := List.mem_map.1 hline
    obtain ⟨rest, hrest⟩ := offsetAssertion_eq_mark_append d.name d.cname o
    rw [hrest, beginsWith_append_of_differ rest (by decide)]
    exact Bool.false_ne_true
  rw [d.filter_lines (by decide) (by decide) (by decide) (by decide) (by decide), hoffsets,
    List.append_nil, List.filter_singleton, hopen]
  rfl

theorem RecordDefinition.filter_offsetMark (d : RecordDefinition) :
    d.lines.filter (beginsWith offsetMark) = d.offsets.map (offsetAssertion d.name d.cname) := by
  have hopen : beginsWith offsetMark ("struct " ++ d.name ++ " \x7b") = false := by
    rw [String.append_assoc]
    exact beginsWith_append_of_differ _ (by decide)
  have hoffsets : (d.offsets.map (offsetAssertion d.name d.cname)).filter (beginsWith offsetMark) =
      d.offsets.map (offsetAssertion d.name d.cname) := by
    rw [List.filter_eq_self]
    intro line hline
    obtain ⟨o, _, rfl⟩ := List.mem_map.1 hline
    obtain ⟨rest, hrest⟩ := offsetAssertion_eq_mark_append d.name d.cname o
    rw [hrest]
    exact beginsWith_append offsetMark rest
  rw [d.filter_lines (by decide) (by decide) (by decide) (by decide) (by decide), hoffsets,
    List.filter_singleton, hopen]
  rfl

/-! ### Light declarations -/

/-- A mark that neither the head of an enumeration nor a blank begins with begins none of its lines. -/
theorem Enumeration.lines_not_mark {mark : String} (hhead : differ mark "enum class " = true)
    (hblank : differ mark "  " = true) (hclose : ∀ line ∈ ["\x7d;", ""], beginsWith mark line = false)
    (width : Nat) (e : Enumeration) : ∀ line ∈ e.lines width, beginsWith mark line = false := by
  have hopen : ∀ rest, beginsWith mark
      ("enum class " ++ e.name ++ " : " ++ e.underlying ++ " \x7b" ++ rest) = false := by
    intro rest
    simp only [String.append_assoc]
    exact beginsWith_append_of_differ _ hhead
  have hvalues : ∀ line ∈ e.enumerators.map (·.line width), beginsWith mark line = false := by
    intro line hline
    obtain ⟨x, _, rfl⟩ := List.mem_map.1 hline
    simp only [Enumerator.line, String.append_assoc]
    exact beginsWith_append_of_differ _ hblank
  unfold Enumeration.lines
  split
  · rw [List.forall_mem_cons]
    exact ⟨hopen _, fun line hline => hclose line (List.mem_cons_of_mem _ hline)⟩
  · rw [List.cons_append, List.forall_mem_cons, List.forall_mem_append]
    refine ⟨?_, hvalues, hclose⟩
    have hplain := hopen ""
    rwa [String.append_empty] at hplain

theorem Enumeration.lines_not_recordMark (width : Nat) (e : Enumeration) :
    ∀ line ∈ e.lines width, beginsWith recordMark line = false :=
  e.lines_not_mark (by decide) (by decide) (by decide) width

/-- A mark that neither an operator nor its body begins with begins none of their lines. -/
theorem Enumeration.operators_not_mark {mark : String} (hhead : differ mark "inline " = true)
    (hbody : differ mark "  return " = true) (hclose : ∀ line ∈ ["\x7d", ""], beginsWith mark line = false)
    (e : Enumeration) : ∀ line ∈ e.operators, beginsWith mark line = false := by
  have hbinary : ∀ op, ∀ line ∈ binaryOperator e.name e.underlying op, beginsWith mark line = false := by
    intro op
    simp only [binaryOperator, String.append_assoc]
    rw [List.forall_mem_cons, List.forall_mem_cons]
    exact ⟨beginsWith_append_of_differ _ hhead, beginsWith_append_of_differ _ hbody, hclose⟩
  have hcomplement : ∀ line ∈ complementOperator e.name e.underlying,
      beginsWith mark line = false := by
    simp only [complementOperator, String.append_assoc]
    rw [List.forall_mem_cons, List.forall_mem_cons]
    exact ⟨beginsWith_append_of_differ _ hhead, beginsWith_append_of_differ _ hbody, hclose⟩
  unfold Enumeration.operators
  split
  · rw [List.forall_mem_append, List.forall_mem_append]
    exact ⟨⟨hbinary "|", hbinary "&"⟩, hcomplement⟩
  · simp

theorem Enumeration.operators_not_recordMark (e : Enumeration) :
    ∀ line ∈ e.operators, beginsWith recordMark line = false :=
  e.operators_not_mark (by decide) (by decide) (by decide)

def LightDeclaration.announced? : LightDeclaration → Option String
  | announcement name => some name
  | aliasOf _ _ | enumeration _ _ => none

theorem LightDeclaration.filter_recordMark (d : LightDeclaration) :
    d.lines.filter (beginsWith recordMark) =
      d.announced?.toList.map fun name => "struct " ++ name ++ ";" := by
  have hend : beginsWith recordMark "" = false := by decide
  cases d with
  | aliasOf name cname =>
    have husing : beginsWith recordMark ("using " ++ name ++ " = " ++ cname ++ ";") = false := by
      simp only [String.append_assoc]
      exact beginsWith_append_of_differ _ (by decide)
    simp [LightDeclaration.lines, announced?, husing, hend]
  | enumeration width e =>
    have hnone : (e.lines width ++ e.operators).filter (beginsWith recordMark) = [] := by
      rw [List.filter_eq_nil_iff, List.forall_mem_append]
      exact ⟨fun line h => by simp [e.lines_not_recordMark width line h],
        fun line h => by simp [e.operators_not_recordMark line h]⟩
    rw [LightDeclaration.lines, hnone]
    rfl
  | announcement name =>
    have hstruct : beginsWith recordMark ("struct " ++ name ++ ";") = true := by
      rw [String.append_assoc]
      exact beginsWith_append recordMark _
    simp [LightDeclaration.lines, announced?, hstruct, hend]

end AbiLayout.Cpp
