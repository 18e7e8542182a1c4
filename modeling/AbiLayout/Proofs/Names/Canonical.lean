import AbiLayout.Cpp.Spelling
import AbiLayout.Description.NamedPart
import AbiLayout.Proofs.Names.Declarable

/-!
# Names of the canonical side

The canonical side pastes names together: types after a lead, values after a lead and an infix, both in
upper case. Main statements: in upper case an identifier stays one, and what is pasted behind a lead
that is an identifier is an identifier.
-/

namespace AbiLayout

namespace Text

/-! ### Upper case -/

/-- What holds of the ASCII characters one by one holds of each of them. -/
theorem of_ascii {P : Char → Prop} (h : ∀ n < 128, P (Char.ofNat n)) {c : Char}
    (hc : c.toNat < 128) : P c := by
  have hval := h c.toNat hc
  rwa [Char.ofNat_toNat] at hval

theorem ascii_of_isNameChar {c : Char} (h : isNameChar c = true) : c.toNat < 128 := by
  have hbound : c.val.toNat < 128 := by
    -- the classes of characters are opened without their equations, down to the bounds
    delta isNameChar Char.isAlphanum Char.isAlpha Char.isUpper Char.isLower Char.isDigit at h
    simp only [Bool.or_eq_true, Bool.and_eq_true, decide_eq_true_eq, beq_iff_eq,
      UInt32.le_iff_toNat_le, ge_iff_le] at h
    rcases h with (((⟨_, h⟩ | ⟨_, h⟩) | ⟨_, h⟩) | rfl)
    · exact Nat.lt_of_le_of_lt h (by decide)
    · exact Nat.lt_of_le_of_lt h (by decide)
    · exact Nat.lt_of_le_of_lt h (by decide)
    · decide
  exact hbound

theorem isNameChar_toUpper {c : Char} (h : isNameChar c = true) : isNameChar c.toUpper = true :=
  of_ascii (P := fun c => isNameChar c = true → isNameChar c.toUpper = true) (by decide +kernel)
    (ascii_of_isNameChar h) h

theorem isDigit_toUpper {c : Char} (h : isNameChar c = true) : c.toUpper.isDigit = c.isDigit :=
  of_ascii (P := fun c => c.toUpper.isDigit = c.isDigit) (by decide +kernel) (ascii_of_isNameChar h)

/-- Names are written in upper case character by character. -/
theorem toList_uppercase {x : String} (h : ∀ c ∈ x.toList, isNameChar c = true) :
    (uppercase x).toList = x.toList.map Char.toUpper := by
  have hone : ∀ c ∈ x.toList, uppercaseChar c = [c.toUpper] := by
    intro c hc
    have hascii : c.toNat < 0x80 := ascii_of_isNameChar (h c hc)
    rw [uppercaseChar, if_pos hascii]
  rw [uppercase, String.toList_ofList]
  generalize x.toList = l at hone
  induction l with
  | nil => rfl
  | cons c rest ih =>
    have hrest := ih fun d hd => hone d (List.mem_cons_of_mem _ hd)
    rw [List.flatMap_cons, hone c (List.mem_cons_self ..), hrest, List.map_cons,
      List.singleton_append]

theorem isNameChar_uppercase {x : String} (h : ∀ c ∈ x.toList, isNameChar c = true) :
    ∀ c ∈ (uppercase x).toList, isNameChar c = true := by
  rw [toList_uppercase h]
  intro c hc
  obtain ⟨d, hd, rfl⟩ := List.mem_map.1 hc
  exact isNameChar_toUpper (h d hd)

theorem isIdentifier_uppercase {x : String} (h : isIdentifier x = true) :
    isIdentifier (uppercase x) = true := by
  rw [isIdentifier_iff, isFragment_iff] at h ⊢
  obtain ⟨⟨hne, hall⟩, hdigit⟩ := h
  refine ⟨⟨?_, isNameChar_uppercase hall⟩, ?_⟩
  · rw [toList_uppercase hall]
    simpa using hne
  · unfold startsWithDigit at hdigit ⊢
    rw [toList_uppercase hall]
    cases hl : x.toList with
    | nil => rfl
    | cons c rest =>
      rw [hl] at hdigit hall
      exact (isDigit_toUpper (hall c (List.mem_cons_self ..))).trans hdigit

end Text

namespace Cpp

open Text

/-! ### Names behind a lead -/

theorem isIdentifier_named {lead name : String} (hlead : isIdentifier lead = true)
    (hname : isFragment name = true) : isIdentifier ((canonical lead).named name) = true := by
  have hend : isFragment "_t" = true := by decide
  have hstart := isIdentifier_append hlead (isNameChar_of_isFragment hname)
  exact isIdentifier_append hstart (isNameChar_of_isFragment hend)

/-- The names of an enumeration that are pasted together: its own, its infix and its values. -/
theorem isFragment_of_intLike {e : IntLike} (hw : (AbiType.intLike e).WellNamed) :
    isFragment e.name = true ∧ (∀ text ∈ e.infixName, isFragment text = true) ∧
      ∀ v ∈ e.values, isFragment v.name = true := by
  have hnames : ∀ p ∈ e.names, p.isGood = true := by
    intro p hp
    exact hw p (by rwa [AbiType.names])
  refine ⟨hnames ⟨.type, e.name⟩ (by simp [IntLike.names]), ?_, ?_⟩
  · intro text ht
    exact hnames ⟨.valueInfix, text⟩ (by simpa [IntLike.names] using ht)
  · intro v hv
    refine hnames ⟨.value, v.name⟩ ?_
    rw [IntLike.names, List.mem_append, List.mem_map]
    exact .inr ⟨v, hv, rfl⟩

theorem isNameChar_constantInfix {e : IntLike} (hw : (AbiType.intLike e).WellNamed) :
    ∀ c ∈ (constantInfix e).toList, isNameChar c = true := by
  obtain ⟨hname, hinfix, _⟩ := isFragment_of_intLike hw
  unfold constantInfix
  cases hi : e.infixName with
  | some text =>
    have htext := hinfix text hi
    exact isNameChar_uppercase (isNameChar_of_isFragment htext)
  | none =>
    intro c hc
    rw [String.toList_append, List.mem_append] at hc
    rcases hc with hc | hc
    · exact isNameChar_uppercase (isNameChar_of_isFragment hname) c hc
    · have hunderscore : isFragment "_" = true := by decide
      exact isNameChar_of_isFragment hunderscore c hc

/-- A canonical constant is an identifier, whether its infix is given or the name of the enumeration. -/
theorem isIdentifier_canonicalValue {lead : String} {e : IntLike} {v : NamedValue}
    (hlead : isIdentifier lead = true) (hw : (AbiType.intLike e).WellNamed) (hv : v ∈ e.values) :
    isIdentifier (canonicalValue lead e v) = true := by
  have hvalue := (isFragment_of_intLike hw).2.2 v hv
  have hstart := isIdentifier_append (isIdentifier_uppercase hlead) (isNameChar_constantInfix hw)
  exact isIdentifier_append hstart (isNameChar_uppercase (isNameChar_of_isFragment hvalue))

end Cpp

end AbiLayout
