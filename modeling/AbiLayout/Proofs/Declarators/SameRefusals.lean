import AbiLayout.Proofs.Declarators.Acceptance

/-!
# Spellings refuse alike

A type is spelled in three ways: with the generated names, with the generated names as seen inside a record,
and with the canonical names. In each it declares a name, or is spelled on its own, or as the leaf that stands
in front of a declarator. Main statement: what one of them refuses the others refuse too, with the same
fault, and nothing is refused but for an array without elements or a void that no pointer leads to.
-/

namespace AbiLayout.Cpp

/-- The three ways of spelling a type: outside of all records, inside one whose members hide the names
`hidden`, and in the canonical header. -/
def spellings (space : String) (hidden : List String) (lead : String) : List Spelling :=
  [generated, insideRecord space hidden, canonical lead]

/-- What stands in front of a declarator. Pointers and arrays take part in the declarator, so that they stand
there only as types on their own. -/
def Spelling.leaf (s : Spelling) : AbiType → Except RenderError String
  | .void => .ok "void"
  | .int kind => .ok (s.integral kind)
  | .atomic target => do return s.atomic (← s.spell target)
  | .pointer target constant => s.declaration (.pointer target constant) ""
  | .array element count => s.declaration (.array element count) ""
  | .aliasOf name _ => .ok (s.named name)
  | .intLike body => .ok (s.named body.name)
  | .userDefined name => .ok (s.named name)
  | .record name _ => .ok (s.named name)

/-- On its own a type is a leaf, and a pointer or an array is declared without a name. -/
theorem Spelling.leaf_eq_spell (s : Spelling) (t : AbiType) : s.leaf t = s.spell t := by
  cases t <;> rfl

theorem exists_declaration_iff (s : Spelling) (t : AbiType) (name : String) :
    (∃ text, s.declaration t name = .ok text) ↔ (t = .void → name = "") ∧ t.ArraysFilled := by
  rw [← faultOf_eq_none_iff, faultOf_declaration, AbiType.refusal?_eq_none_iff, Declarator.isPointer,
    Declarator.text, Bool.false_or, String.isEmpty_iff]

/-- On its own a type is spelled without a name, and there void itself passes. -/
theorem exists_spell_iff (s : Spelling) (t : AbiType) :
    (∃ text, s.spell t = .ok text) ↔ t.ArraysFilled := by
  rw [← faultOf_eq_none_iff, faultOf_spell, AbiType.refusal?_eq_none_iff]
  simp [Declarator.nameless, Declarator.text]

/-- All three spellings refuse the same types with the same fault, whether the type declares a name, is
spelled on its own or stands as a leaf. What they do not refuse has no empty array on the way through
pointers, arrays and atomics; and what has none there, and no void but behind a pointer, declares every
name. -/
theorem spellings_refuse_alike (t : AbiType) (name space lead : String) (hidden : List String) :
    (∀ s ∈ spellings space hidden lead, ∀ s' ∈ spellings space hidden lead,
      faultOf (s.declaration t name) = faultOf (s'.declaration t name) ∧
      faultOf (s.spell t) = faultOf (s'.spell t) ∧
      faultOf (s.leaf t) = faultOf (s'.leaf t)) ∧
    (∀ s ∈ spellings space hidden lead,
      (∃ text, s.declaration t name = .ok text) ∨ (∃ text, s.spell t = .ok text) ∨
          (∃ text, s.leaf t = .ok text) →
        ∀ element count, t.LeadsTo (.array element count) → count ≠ 0) ∧
    ((∀ element count, t.LeadsTo (.array element count) → count ≠ 0) → t.VoidOnlyPointedTo →
      ∀ s ∈ spellings space hidden lead, ∃ text, s.declaration t name = .ok text) := by
  refine ⟨?_, ?_, ?_⟩
  · intro s _ s' _
    refine ⟨?_, ?_, ?_⟩
    · rw [faultOf_declaration, faultOf_declaration]
    · rw [faultOf_spell, faultOf_spell]
    · rw [Spelling.leaf_eq_spell, Spelling.leaf_eq_spell, faultOf_spell, faultOf_spell]
  · intro s _ haccepted element count hway
    have hfilled : t.ArraysFilled := by
      rw [Spelling.leaf_eq_spell, or_self] at haccepted
      rcases haccepted with hdeclared | hspelled
      · exact ((exists_declaration_iff s t name).1 hdeclared).2
      · exact (exists_spell_iff s t).1 hspelled
    exact (hfilled element count hway).1
  · intro hcount hplaces s _
    have hvoid : t = .void → name = "" := fun h => absurd h hplaces.notVoid
    exact (exists_declaration_iff s t name).2 ⟨hvoid, hplaces.arraysFilled hcount⟩

/-- A pointer to arrays of atomics that hold pointers to void. -/
def slotTable : AbiType := .pointer (.array (.atomic (.pointer .void true)) 4) false

theorem slotTable_voidOnlyPointedTo : slotTable.VoidOnlyPointedTo where
  notVoid := by simp [slotTable]
  elements := by
    rintro element count hway rfl
    cases hway with
    | pointer hway => cases hway with
      | array hway => cases hway with
        | atomic hway => cases hway with
          | pointer hway => cases hway
  atomics := by
    rintro target hway rfl
    cases hway with
    | pointer hway => cases hway with
      | array hway => cases hway with
        | atomic hway => cases hway with
          | pointer hway => cases hway

theorem spellings_refuse_alike_slotTable :
    canonical "cloudabi_" ∈ spellings "cloudabi" ["fd"] "cloudabi_" ∧
    (canonical "cloudabi_").declaration slotTable "p" = .ok "_Atomic(const void *) (*p)[4]" ∧
    (∀ element count, slotTable.LeadsTo (.array element count) → count ≠ 0) ∧
    slotTable.VoidOnlyPointedTo ∧
    ∃ text, (insideRecord "cloudabi" ["fd"]).declaration slotTable "p" = .ok text := by
  have hcanonical : canonical "cloudabi_" ∈ spellings "cloudabi" ["fd"] "cloudabi_" := by
    simp [spellings]
  have hinside : insideRecord "cloudabi" ["fd"] ∈ spellings "cloudabi" ["fd"] "cloudabi_" := by
    simp [spellings]
  have hdeclared : (canonical "cloudabi_").declaration slotTable "p" =
      .ok "_Atomic(const void *) (*p)[4]" := by rfl
  obtain ⟨_, hcounts, haccepts⟩ := spellings_refuse_alike slotTable "p" "cloudabi" "cloudabi_" ["fd"]
  have hcount := hcounts _ hcanonical (.inl ⟨_, hdeclared⟩)
  exact ⟨hcanonical, hdeclared, hcount, slotTable_voidOnlyPointedTo,
    haccepts hcount slotTable_voidOnlyPointedTo _ hinside⟩

end AbiLayout.Cpp
