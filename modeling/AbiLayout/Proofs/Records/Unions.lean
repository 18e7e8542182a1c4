import AbiLayout.Proofs.Records.Qualification

/-!
# Unions that are dissolved

A union adds two lines around its members and moves them two columns to the right. Main statement: if a
union in an outline is replaced by what it holds, the outline has the same first fault, and where it has none
the same fields are declared, by the same lines but for those two and for the indentation between them.
-/

namespace AbiLayout.Cpp

/-! ### Lines -/

/-- The second list of lines is the first without the two lines of one union, where what stood between these
is two columns further left; or both are the same. -/
inductive UnionDissolved : List String → List String → Prop where
  | same (lines : List String) : UnionDissolved lines lines
  | dissolved (depth : Nat) (before inner after : List String) :
    UnionDissolved
      (before ++ ((indentation depth ++ "union \x7b") :: inner.map ("  " ++ ·) ++
        [indentation depth ++ "\x7d;"]) ++ after)
      (before ++ inner ++ after)

namespace UnionDissolved

variable {lines lines' : List String}

theorem append_left (h : UnionDissolved lines lines') (start : List String) :
    UnionDissolved (start ++ lines) (start ++ lines') := by
  cases h with
  | same => exact .same _
  | dissolved depth before inner after =>
    have h := dissolved depth (start ++ before) inner after
    simpa only [List.append_assoc] using h

theorem append_right (h : UnionDissolved lines lines') (stop : List String) :
    UnionDissolved (lines ++ stop) (lines' ++ stop) := by
  cases h with
  | same => exact .same _
  | dissolved depth before inner after =>
    have h := dissolved depth before inner (after ++ stop)
    simpa only [List.append_assoc] using h

/-- Lines with one more in front and one more behind. -/
theorem between (h : UnionDissolved lines lines') (first last : String) :
    UnionDissolved (first :: lines ++ [last]) (first :: lines' ++ [last]) :=
  (h.append_left [first]).append_right [last]

end UnionDissolved

namespace Body

theorem fieldsAll_append (a b : List Body) : fieldsAll (a ++ b) = fieldsAll a ++ fieldsAll b := by
  induction a with
  | nil => rfl
  | cons x rest ih => rw [List.cons_append, fieldsAll, fieldsAll, ih, List.append_assoc]

end Body

/-! ### Outlines -/

namespace Outline

/-- The second outline is the first with one union, at any depth, replaced by what it holds; or both are the
same. -/
inductive Dissolves : List Outline → List Outline → Prop where
  | same (os : List Outline) : Dissolves os os
  | here (body rest : List Outline) : Dissolves (.union body :: rest) (body ++ rest)
  | later (o : Outline) {os os' : List Outline} (h : Dissolves os os') : Dissolves (o :: os) (o :: os')
  | inUnion {body body' : List Outline} (h : Dissolves body body') (rest : List Outline) :
    Dissolves (.union body :: rest) (.union body' :: rest)
  | inNested (name : String) (fault : Option RenderError) {body body' : List Outline}
    (h : Dissolves body body') (rest : List Outline) :
    Dissolves (.nested name fault body :: rest) (.nested name fault body' :: rest)

variable {os os' : List Outline}

theorem Dissolves.append_left (h : Dissolves os os') (start : List Outline) :
    Dissolves (start ++ os) (start ++ os') := by
  induction start with
  | nil => exact h
  | cons o rest ih => exact .later o ih

theorem Dissolves.append_right (h : Dissolves os os') (stop : List Outline) :
    Dissolves (os ++ stop) (os' ++ stop) := by
  induction h with
  | same os => exact .same _
  | here body rest =>
    rw [List.append_assoc]
    exact .here body (rest ++ stop)
  | later o _ ih => exact .later o ih
  | inUnion h rest => exact .inUnion h (rest ++ stop)
  | inNested name fault h rest => exact .inNested name fault h (rest ++ stop)

theorem Dissolves.faultAll?_eq (h : Dissolves os os') : faultAll? os = faultAll? os' := by
  induction h with
  | same os => rfl
  | here body rest => rw [faultAll?, fault?, faultAll?_append]
  | later o _ ih => rw [faultAll?, faultAll?, ih]
  | inUnion _ rest ih => rw [faultAll?, faultAll?, fault?, fault?, ih]
  | inNested name fault _ rest ih => rw [faultAll?, faultAll?, fault?, fault?, ih]

end Outline

/-! ### Bodies -/

namespace Body

theorem outlineAll_eq_cons {bs : List Body} {o : Outline} {os : List Outline} (h : outlineAll bs = o :: os) :
    ∃ b rest, bs = b :: rest ∧ b.outline = o ∧ outlineAll rest = os := by
  cases bs with
  | nil => cases h
  | cons b rest =>
    rw [outlineAll, List.cons.injEq] at h
    exact ⟨b, rest, rfl, h⟩

theorem outline_eq_union {b : Body} {os : List Outline} (h : b.outline = .union os) :
    ∃ inner, b = .union inner ∧ outlineAll inner = os := by
  cases b with
  | union inner =>
    rw [outline, Outline.union.injEq] at h
    exact ⟨inner, rfl, h⟩
  | field f => cases h
  | nested name inner => cases h

theorem outline_eq_nested {b : Body} {name : String} {fault : Option RenderError} {os : List Outline}
    (h : b.outline = .nested name fault os) :
    ∃ inner, b = .nested name inner ∧ fault = none ∧ outlineAll inner = os := by
  cases b with
  | nested other inner =>
    rw [outline, Outline.nested.injEq] at h
    obtain ⟨rfl, rfl, h⟩ := h
    exact ⟨inner, rfl, rfl, h⟩
  | field f => cases h
  | union inner => cases h

end Body

/-- The body of an outline has one beside it for the outline with a union dissolved, with the same fields. -/
theorem Outline.Dissolves.exists_body {os os' : List Outline} (h : Dissolves os os') {bs : List Body}
    (hbs : Body.outlineAll bs = os) : ∃ bs', Body.outlineAll bs' = os' ∧
      Body.fieldsAll bs = Body.fieldsAll bs' ∧
      ∀ depth, UnionDissolved (Body.linesAll depth bs) (Body.linesAll depth bs') := by
  induction h generalizing bs with
  | same os => exact ⟨bs, hbs, rfl, fun depth => .same _⟩
  | here os rest =>
    obtain ⟨b, bs, rfl, hb, hrest⟩ := Body.outlineAll_eq_cons hbs
    obtain ⟨inner, rfl, hinner⟩ := Body.outline_eq_union hb
    refine ⟨inner ++ bs, by rw [Body.outlineAll_append, hinner, hrest], ?_, fun depth => ?_⟩
    · rw [Body.fieldsAll_append, Body.fieldsAll, Body.fields]
    · have h := UnionDissolved.dissolved depth [] (Body.linesAll depth inner) (Body.linesAll depth bs)
      rw [Body.linesAll, Body.lines, Body.linesAll_succ, Body.linesAll_append]
      exact h
  | later o _ ih =>
    obtain ⟨b, bs, rfl, hb, hrest⟩ := Body.outlineAll_eq_cons hbs
    obtain ⟨bs', hbs', hfields, hlines⟩ := ih hrest
    refine ⟨b :: bs', by rw [Body.outlineAll, hb, hbs'], ?_, fun depth => ?_⟩
    · rw [Body.fieldsAll, Body.fieldsAll, hfields]
    · exact (hlines depth).append_left (b.lines depth)
  | inUnion _ rest ih =>
    obtain ⟨b, bs, rfl, hb, hrest⟩ := Body.outlineAll_eq_cons hbs
    obtain ⟨inner, rfl, hinner⟩ := Body.outline_eq_union hb
    obtain ⟨inner', hinner', hfields, hlines⟩ := ih hinner
    refine ⟨.union inner' :: bs, ?_, ?_, fun depth => ?_⟩
    · rw [Body.outlineAll, Body.outline, hinner', hrest]
    · rw [Body.fieldsAll, Body.fieldsAll, Body.fields, Body.fields, hfields]
    · exact ((hlines (depth + 1)).between _ _).append_right (Body.linesAll depth bs)
  | inNested name fault _ rest ih =>
    obtain ⟨b, bs, rfl, hb, hrest⟩ := Body.outlineAll_eq_cons hbs
    obtain ⟨inner, rfl, rfl, hinner⟩ := Body.outline_eq_nested hb
    obtain ⟨inner', hinner', hfields, hlines⟩ := ih hinner
    refine ⟨.nested name inner' :: bs, ?_, ?_, fun depth => ?_⟩
    · rw [Body.outlineAll, Body.outline, hinner', hrest]
    · rw [Body.fieldsAll, Body.fieldsAll, Body.fields, Body.fields, hfields]
    · exact ((hlines (depth + 1)).between _ _).append_right (Body.linesAll depth bs)

end AbiLayout.Cpp
