import AbiLayout.Proofs.Names.Collision

/-!
# Names that can be declared

What stands for a declared name on the generated side has to be an identifier that the language leaves
free. Main statement: whatever the declared name was, its identifier is one of these.
-/

namespace AbiLayout

namespace Text

theorem isFragment_iff (x : String) :
    isFragment x = true ↔ x.toList ≠ [] ∧ ∀ c ∈ x.toList, isNameChar c = true := by
  simp [isFragment]

theorem isNameChar_of_isFragment {x : String} (h : isFragment x = true) :
    ∀ c ∈ x.toList, isNameChar c = true :=
  ((isFragment_iff x).1 h).2

theorem isIdentifier_iff (x : String) :
    isIdentifier x = true ↔ isFragment x = true ∧ startsWithDigit x = false := by
  simp [isIdentifier]

theorem isFragment_append {x y : String} (hx : isFragment x = true)
    (hy : ∀ c ∈ y.toList, isNameChar c = true) : isFragment (x ++ y) = true := by
  rw [isFragment_iff] at hx ⊢
  rw [String.toList_append]
  refine ⟨?_, ?_⟩
  · have hne := hx.1
    simp [hne]
  · intro c hc
    rcases List.mem_append.1 hc with hc | hc
    · exact hx.2 c hc
    · exact hy c hc

theorem startsWithDigit_append {x : String} (hx : x.toList ≠ []) (y : String) :
    startsWithDigit (x ++ y) = startsWithDigit x := by
  unfold startsWithDigit
  rw [String.toList_append]
  cases hl : x.toList with
  | nil => exact absurd hl hx
  | cons c rest => rfl

/-- Text that is pasted behind an identifier leaves it one, as long as it has name characters alone. -/
theorem isIdentifier_append {x y : String} (hx : isIdentifier x = true)
    (hy : ∀ c ∈ y.toList, isNameChar c = true) : isIdentifier (x ++ y) = true := by
  rw [isIdentifier_iff] at hx ⊢
  have hne := ((isFragment_iff x).1 hx.1).1
  refine ⟨isFragment_append hx.1 hy, ?_⟩
  rw [startsWithDigit_append hne]
  exact hx.2

/-- An identifier has no dot in it. -/
theorem dotless_of_isIdentifier {x : String} (h : isIdentifier x = true) : '.' ∉ x.toList := by
  have hall := isNameChar_of_isFragment ((isIdentifier_iff x).1 h).1
  intro hdot
  exact absurd (hall '.' hdot) (by decide)

end Text

namespace Cpp

open Text

/-- An identifier that is no reserved word and hides no standard facility. -/
structure Declarable (x : String) : Prop where
  identifier : isIdentifier x = true
  notKeyword : isKeyword x = false
  notErrno : x ≠ "errno"

theorem isFragment_sanitize (x : String) : isFragment (sanitize x) = true := by
  unfold sanitize
  split
  · decide
  · next h =>
    rw [isFragment_iff, String.toList_ofList]
    refine ⟨by simpa using h, ?_⟩
    intro c hc
    obtain ⟨d, _, rfl⟩ := List.mem_map.1 hc
    by_cases hd : isNameChar d = true
    · rw [if_pos hd]
      exact hd
    · rw [if_neg hd]
      decide

theorem isFragment_of_bendsTo {x y : String} (h : BendsTo x y) (hx : isFragment x = true) :
    isFragment y = true := by
  have hunderscore : isFragment "_" = true := by decide
  cases h with
  | digit _ => exact isFragment_append hunderscore (isNameChar_of_isFragment hx)
  | keyword _ => exact isFragment_append hx (isNameChar_of_isFragment hunderscore)
  | replaced h =>
    obtain ⟨_, rfl⟩ := replaced_eq h
    decide

/-- A name that is left alone can be declared. -/
theorem declarable_of_escape_eq {x : String} (hx : isFragment x = true) (h : escape x = x) :
    Declarable x := by
  have hfree : ∀ y, ¬ BendsTo x y := fun y hy => hy.ne (h.symm.trans (escape_bendsTo hy))
  refine ⟨(isIdentifier_iff x).2 ⟨hx, ?_⟩, ?_, ?_⟩
  · exact Bool.eq_false_iff.2 fun hd => hfree _ (.digit hd)
  · exact Bool.eq_false_iff.2 fun hk => hfree _ (.keyword hk)
  · rintro rfl
    exact hfree "error" (.replaced (by decide))

theorem mangle_declarable (x : String) : Declarable (mangle x) := by
  have hs := isFragment_sanitize x
  rw [mangle]
  rcases bendsTo_or_escape_eq (sanitize x) with h | h
  · exact declarable_of_escape_eq (isFragment_of_bendsTo h hs) (escape_of_bendsTo h)
  · rw [h]
    exact declarable_of_escape_eq hs h

theorem mangle_ne_empty (x : String) : mangle x ≠ "" := by
  have hfragment := ((isIdentifier_iff _).1 (mangle_declarable x).identifier).1
  intro hempty
  exact ((isFragment_iff _).1 hfragment).1 (String.toList_eq_nil_iff.2 hempty)

end Cpp

end AbiLayout
