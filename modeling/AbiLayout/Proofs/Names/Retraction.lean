import AbiLayout.Proofs.Names.Declarable
import Mathlib.Data.Set.Subsingleton

/-!
# What mangling leaves alone and what it brings together

Mangling takes every text to a name that can be declared, and leaves such a name alone. Main statements:
it is a retraction onto these names; and of the names that consist of identifier characters it brings two
together only where one of them is bent into the other, so at most two at a time.
-/

namespace AbiLayout.Cpp

open Text (isFragment isIdentifier_iff startsWithDigit)

/-! ### Names that are left alone -/

theorem sanitize_sanitize (x : String) : sanitize (sanitize x) = sanitize x :=
  sanitize_eq_self (isFragment_sanitize x)

theorem mangle_sanitize (x : String) : mangle (sanitize x) = mangle x := by
  rw [mangle, sanitize_sanitize, mangle]

theorem mangle_of_declarable {x : String} (h : Declarable x) : mangle x = x := by
  obtain ⟨hfragment, hdigit⟩ := (isIdentifier_iff x).1 h.identifier
  have hreplaced := lookup_replacements_eq_none h.notErrno
  rw [mangle, sanitize_eq_self hfragment]
  exact escape_eq_self hdigit h.notKeyword hreplaced

theorem mangle_eq_self_iff (x : String) : mangle x = x ↔ Declarable x := by
  constructor
  · intro h
    rw [← h]
    exact mangle_declarable x
  · exact mangle_of_declarable

/-- Whatever text is mangled, a name comes out that can be declared, and these names are exactly those
that stay as they are; so mangling a second time changes nothing. -/
theorem mangle_retraction (x : String) :
    Declarable (mangle x) ∧ (mangle x = x ↔ Declarable x) ∧ mangle (mangle x) = mangle x := by
  have hdeclarable := mangle_declarable x
  exact ⟨hdeclarable, mangle_eq_self_iff x, mangle_of_declarable hdeclarable⟩

/-! ### Names that are brought together -/

theorem bendsTo_iff_rule (x y : String) :
    BendsTo x y ↔ (startsWithDigit x = true ∧ y = "_" ++ x) ∨ (isKeyword x = true ∧ y = x ++ "_") ∨
      (x = "errno" ∧ y = "error") := by
  have hreplaced : (x, y) ∈ replacements ↔ x = "errno" ∧ y = "error" := by simp [replacements]
  rw [bendsTo_iff, hreplaced]

/-- A name that is bent is not what another name is bent into. -/
theorem BendsTo.not_bent {x y z : String} (h : BendsTo x y) : ¬ BendsTo z x := by
  intro hz
  have hself := escape_of_bendsTo hz
  rw [escape_bendsTo h] at hself
  exact h.ne hself.symm

/-- At most one other name meets a given one: what it is bent into, or what is bent into it. -/
theorem eq_of_meet {x y z : String} (hy : BendsTo x y ∨ BendsTo y x) (hz : BendsTo x z ∨ BendsTo z x) :
    y = z := by
  rcases hy with hy | hy
  · rcases hz with hz | hz
    · exact (escape_bendsTo hy).symm.trans (escape_bendsTo hz)
    · exact absurd hz hy.not_bent
  · rcases hz with hz | hz
    · exact absurd hy hz.not_bent
    · exact hy.unique hz

theorem meet_of_mangle_eq {x y : String} (hx : isFragment x = true) (hy : isFragment y = true)
    (hne : y ≠ x) (h : mangle y = mangle x) : BendsTo x y ∨ BendsTo y x := by
  have hcases := (mangle_eq_mangle_iff hx hy).1 h.symm
  exact hcases.resolve_left hne.symm

/-- Two different names of identifier characters are mangled to the same exactly if one of them is bent
into the other, by a digit in front, as a reserved word, or as the name of a standard facility; so each of
them shares its identifier with at most one other. Any text is mangled like the name of identifier
characters that it is turned into first. -/
theorem mangle_collisions :
    (∀ x y, BendsTo x y ↔ (startsWithDigit x = true ∧ y = "_" ++ x) ∨
      (isKeyword x = true ∧ y = x ++ "_") ∨ (x = "errno" ∧ y = "error")) ∧
    (∀ x y, isFragment x = true → isFragment y = true → x ≠ y →
      (mangle x = mangle y ↔ BendsTo x y ∨ BendsTo y x)) ∧
    (∀ x, mangle x = mangle (sanitize x)) ∧
    ∀ x, isFragment x = true →
      {y | isFragment y = true ∧ y ≠ x ∧ mangle y = mangle x}.Subsingleton := by
  refine ⟨bendsTo_iff_rule, ?_, fun x => (mangle_sanitize x).symm, ?_⟩
  · intro x y hx hy hne
    rw [mangle_eq_mangle_iff hx hy, or_iff_right hne]
  · rintro x hx y ⟨hy, hyx, hymeet⟩ z ⟨hz, hzx, hzmeet⟩
    exact eq_of_meet (meet_of_mangle_eq hx hy hyx hymeet) (meet_of_mangle_eq hx hz hzx hzmeet)

theorem mangle_collisions_private :
    isFragment "private" = true ∧ isFragment "private_" = true ∧ "private" ≠ "private_" ∧
    (mangle "private" = mangle "private_" ↔
      BendsTo "private" "private_" ∨ BendsTo "private_" "private") ∧
    BendsTo "private" "private_" ∧
    "private_" ∈ {y | isFragment y = true ∧ y ≠ "private" ∧ mangle y = mangle "private"} ∧
    {y | isFragment y = true ∧ y ≠ "private" ∧ mangle y = mangle "private"}.Subsingleton := by
  have hplain : isFragment "private" = true := by decide +kernel
  have hbent : isFragment "private_" = true := by decide +kernel
  have hne : "private" ≠ "private_" := by decide
  have hbends : BendsTo "private" "private_" := .keyword (by decide +kernel)
  obtain ⟨-, hmeet, -, hfew⟩ := mangle_collisions
  have hiff := hmeet "private" "private_" hplain hbent hne
  have hmangle : mangle "private_" = mangle "private" := (hiff.2 (.inl hbends)).symm
  exact ⟨hplain, hbent, hne, hiff, hbends, ⟨hbent, hne.symm, hmangle⟩, hfew "private" hplain⟩

end AbiLayout.Cpp
