import AbiLayout.Proofs.Records.Body

/-!
# Faults of outlines

Rendering an outline ends with the first fault in the order of its lines. An outline of members that
has no fault is the outline of a body.
-/

namespace AbiLayout.Cpp

namespace Outline

mutual

/-- The first fault, in the order of the lines. -/
def fault? : Outline → Option RenderError
  | .field _ (.ok _) => none
  | .field _ (.error e) => some e
  | .union body => faultAll? body
  | .nested _ fault body => fault.or (faultAll? body)

def faultAll? : List Outline → Option RenderError
  | [] => none
  | o :: rest => (fault? o).or (faultAll? rest)

end

theorem faultAll?_append (a b : List Outline) :
    faultAll? (a ++ b) = (faultAll? a).or (faultAll? b) := by
  induction a with
  | nil => rfl
  | cons o rest ih => rw [List.cons_append, faultAll?, faultAll?, ih, Option.or_assoc]

theorem pathsAll_append (lead : String) (a b : List Outline) :
    pathsAll lead (a ++ b) = pathsAll lead a ++ pathsAll lead b := by
  induction a with
  | nil => rfl
  | cons o rest ih => rw [List.cons_append, pathsAll, pathsAll, ih, List.append_assoc]

theorem check_or (a b : Option RenderError) :
    (Emission.check (a.or b)).result =
      (Emission.check a).result >>= fun _ => (Emission.check b).result := by
  cases a <;> rfl

theorem bind_line (r : Except RenderError Unit) (text : String) :
    (r >>= fun _ => (Emission.line text).result) = r := by
  cases r <;> rfl

mutual

theorem result_emit (depth : Nat) (o : Outline) :
    (o.emit depth).result = (Emission.check o.fault?).result := by
  cases o with
  | field name text =>
    cases text <;> rfl
  | union body =>
    rw [emit, Emission.result_bind, fault?]
    show ((emitAll (depth + 1) body) >>= fun _ => Emission.line _).result = _
    rw [Emission.result_bind, result_emitAll (depth + 1) body, bind_line]
  | nested name fault body =>
    rw [emit, Emission.result_bind, fault?, check_or]
    show (Emission.check fault >>= fun _ => emitAll (depth + 1) body >>= fun _ =>
      Emission.line _).result = _
    rw [Emission.result_bind]
    congr 1
    funext _
    rw [Emission.result_bind, result_emitAll (depth + 1) body, bind_line]

theorem result_emitAll (depth : Nat) (os : List Outline) :
    (emitAll depth os).result = (Emission.check (faultAll? os)).result := by
  cases os with
  | nil => rfl
  | cons o rest =>
    rw [emitAll, Emission.result_bind, result_emit depth o, faultAll?, check_or]
    congr 1
    funext _
    exact result_emitAll depth rest

end

end Outline

/-! ### Members without faults have a body -/

theorem exists_field_of_declaration (s : Spelling) (type : AbiType) (name : String)
    (h : (Outline.field name (s.declaration type name)).fault? = none) :
    ∃ f : Field, (Body.field f).outline = .field name (s.declaration type name) := by
  cases ht : s.declaration type name with
  | error e =>
    rw [ht] at h
    cases h
  | ok text =>
    obtain ⟨leaf, _, rfl⟩ := s.spellThrough_eq_ok type (.name name) ht
    refine ⟨.plain type.constantCount leaf ((Declarator.name name).along type.chain), ?_⟩
    rw [Body.outline, Field.name, Field.text, Declarator.declared_along]
    rfl

theorem exists_field_of_range (s : Spelling) (viewType : String) (target : AbiType)
    (constant : Bool) (name : String) :
    let text := do return rangeDeclaration viewType (← s.spell target) constant name
    (Outline.field name text).fault? = none → ∃ f : Field, (Body.field f).outline = .field name text := by
  intro text h
  cases ht : s.spell target with
  | error e =>
    have hfault : text = .error e := by
      show (s.spell target >>= _) = _
      rw [ht]
      rfl
    rw [hfault] at h
    cases h
  | ok spelled =>
    refine ⟨.view viewType spelled constant name, ?_⟩
    have htext : text = .ok (rangeDeclaration viewType spelled constant name) := by
      show (s.spell target >>= _) = _
      rw [ht]
      rfl
    rw [htext]
    rfl

mutual

theorem exists_body_of_member (s : RecordSettings) (scope : String) (visible : List String)
    (m : Member) (h : (outlineMember s scope visible m).fault? = none) :
    ∃ b : Body, b.outline = outlineMember s scope visible m := by
  cases m with
  | simple name type =>
    rw [outlineMember] at h ⊢
    obtain ⟨f, hf⟩ := exists_field_of_declaration _ type (mangle name) h
    exact ⟨.field f, hf⟩
  | variant alternatives =>
    rw [outlineMember, Outline.fault?] at h
    obtain ⟨bs, hbs⟩ := exists_body_of_alternatives s scope visible alternatives h
    refine ⟨.union bs, ?_⟩
    rw [Body.outline, outlineMember, hbs]
  | range name target constant baseName lengthName =>
    rw [outlineMember] at h ⊢
    obtain ⟨f, hf⟩ := exists_field_of_range _ s.rangeViewType target constant (mangle name) h
    exact ⟨.field f, hf⟩

theorem exists_body_of_members (s : RecordSettings) (scope : String) (visible : List String)
    (ms : List Member) (h : Outline.faultAll? (outlineMembers s scope visible ms) = none) :
    ∃ bs, Body.outlineAll bs = outlineMembers s scope visible ms := by
  cases ms with
  | nil => exact ⟨[], rfl⟩
  | cons m rest =>
    rw [outlineMembers, Outline.faultAll?, Option.or_eq_none_iff] at h
    obtain ⟨b, hb⟩ := exists_body_of_member s scope visible m h.1
    obtain ⟨bs, hbs⟩ := exists_body_of_members s scope visible rest h.2
    refine ⟨b :: bs, ?_⟩
    rw [Body.outlineAll, outlineMembers, hb, hbs]

theorem exists_body_of_alternative (s : RecordSettings) (scope : String) (visible : List String)
    (a : Alternative) (h : Outline.faultAll? (outlineAlternative s scope visible a) = none) :
    ∃ bs, Body.outlineAll bs = outlineAlternative s scope visible a := by
  match a with
  | .mk none members =>
    rw [outlineAlternative] at h ⊢
    exact exists_body_of_members s scope visible members h
  | .mk (some name) members =>
    rw [outlineAlternative, Outline.faultAll?, Outline.fault?] at h
    simp only [Option.or_eq_none_iff] at h
    obtain ⟨⟨hscope, hbody⟩, _⟩ := h
    obtain ⟨bs, hbs⟩ := exists_body_of_members s _ _ members hbody
    refine ⟨[.nested (mangle name) bs], ?_⟩
    rw [Body.outlineAll, Body.outlineAll, Body.outline, outlineAlternative, hbs, hscope]

theorem exists_body_of_alternatives (s : RecordSettings) (scope : String) (visible : List String)
    (as : List Alternative) (h : Outline.faultAll? (outlineAlternatives s scope visible as) = none) :
    ∃ bs, Body.outlineAll bs = outlineAlternatives s scope visible as := by
  cases as with
  | nil => exact ⟨[], rfl⟩
  | cons a rest =>
    rw [outlineAlternatives, Outline.faultAll?_append, Option.or_eq_none_iff] at h
    obtain ⟨bs, hbs⟩ := exists_body_of_alternative s scope visible a h.1
    obtain ⟨cs, hcs⟩ := exists_body_of_alternatives s scope visible rest h.2
    refine ⟨bs ++ cs, ?_⟩
    rw [Body.outlineAll_append, outlineAlternatives, hbs, hcs]

end

end AbiLayout.Cpp
