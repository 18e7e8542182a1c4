import AbiLayout.Cpp.Name
import Mathlib.Data.List.Nodup
import Mathlib.Tactic.MkIffOfInductiveProp

/-!
# Names that meet

Two declared names can be given one identifier. Among names that consist of identifier characters this
happens only where one of them is bent into the other: a digit in front has `_` put before it, a reserved
word has `_` put behind it, and a replaced name has become its replacement. Main statement: mangled names
are pairwise different exactly if none of the names is bent into another.
-/

namespace AbiLayout.Cpp

open Text (isNameChar startsWithDigit isFragment)

/-- The name `x` cannot be declared, and `y` is what stands for it. -/
@[mk_iff]
inductive BendsTo : String → String → Prop where
  | digit {x : String} (h : startsWithDigit x = true) : BendsTo x ("_" ++ x)
  | keyword {x : String} (h : isKeyword x = true) : BendsTo x (x ++ "_")
  | replaced {x y : String} (h : (x, y) ∈ replacements) : BendsTo x y

/-! ### First and last characters -/

theorem isKeyword_start {x : String} (h : isKeyword x = true) :
    ∃ c rest, x.toList = c :: rest ∧ c.isLower = true := by
  have hall : ∀ k ∈ keywords, (k.toList.head?.any Char.isLower) = true := by decide +kernel
  have hx := hall x (by simpa [isKeyword] using h)
  cases hl : x.toList with
  | nil =>
    rw [hl] at hx
    cases hx
  | cons c rest =>
    rw [hl] at hx
    exact ⟨c, rest, rfl, hx⟩

theorem isKeyword_not_digit {x : String} (h : isKeyword x = true) : startsWithDigit x = false := by
  have hall : ∀ k ∈ keywords, startsWithDigit k = false := by decide +kernel
  exact hall x (by simpa [isKeyword] using h)

theorem replaced_eq {x y : String} (h : (x, y) ∈ replacements) : x = "errno" ∧ y = "error" := by
  simpa [replacements] using h

theorem isKeyword_head {x : String} (h : isKeyword x = true) : x.toList.head? ≠ some '_' := by
  obtain ⟨c, rest, hl, hc⟩ := isKeyword_start h
  rw [hl]
  rintro ⟨⟩
  exact absurd hc (by decide)

theorem isKeyword_end {x : String} (h : isKeyword x = true) : x.toList.getLast? ≠ some '_' := by
  have hall : ∀ k ∈ keywords, k.toList.getLast? ≠ some '_' := by decide +kernel
  exact hall x (by simpa [isKeyword] using h)

theorem underscore_append_ne {x y : String} (h : y.toList.head? ≠ some '_') : "_" ++ x ≠ y := by
  rintro rfl
  exact h (by rw [String.toList_append]; rfl)

theorem append_underscore_ne {x y : String} (h : y.toList.getLast? ≠ some '_') : x ++ "_" ≠ y := by
  rintro rfl
  exact h (by simp [String.toList_append])

theorem not_isKeyword_underscore_append (x : String) : isKeyword ("_" ++ x) = false := by
  rw [Bool.eq_false_iff]
  intro hk
  exact underscore_append_ne (isKeyword_head hk) rfl

theorem not_isKeyword_append_underscore (x : String) : isKeyword (x ++ "_") = false := by
  rw [Bool.eq_false_iff]
  intro hk
  exact append_underscore_ne (isKeyword_end hk) rfl

/-! ### A bent name is left alone -/

theorem escape_eq_self {x : String} (hd : startsWithDigit x = false) (hk : isKeyword x = false)
    (hr : replacements.lookup x = none) : escape x = x := by
  simp [escape, hd, hk, hr]

theorem escape_digit {x : String} (h : startsWithDigit x = true) : escape x = "_" ++ x := by
  simp [escape, h]

theorem escape_keyword {x : String} (h : isKeyword x = true) : escape x = x ++ "_" := by
  simp [escape, h, isKeyword_not_digit h]

theorem lookup_replacements_eq_none {x : String} (h : x ≠ "errno") :
    replacements.lookup x = none := by
  have hbeq : (x == "errno") = false := by simpa using h
  simp [replacements, hbeq]

theorem escape_bendsTo {x y : String} (h : BendsTo x y) : escape x = y := by
  cases h with
  | digit h => exact escape_digit h
  | keyword h => exact escape_keyword h
  | replaced h =>
    obtain ⟨rfl, rfl⟩ := replaced_eq h
    decide +kernel

theorem escape_of_bendsTo {x y : String} (h : BendsTo x y) : escape y = y := by
  cases h with
  | digit h =>
    have hd : startsWithDigit ("_" ++ x) = false := by
      simp [startsWithDigit, String.toList_append]
    have hr : "_" ++ x ≠ "errno" := underscore_append_ne (by decide)
    exact escape_eq_self hd (not_isKeyword_underscore_append x) (lookup_replacements_eq_none hr)
  | keyword h =>
    have hd : startsWithDigit (x ++ "_") = false := by
      obtain ⟨c, rest, hl, _⟩ := isKeyword_start h
      have hx := isKeyword_not_digit h
      rw [startsWithDigit, hl] at hx
      rw [startsWithDigit, String.toList_append, hl]
      exact hx
    have hr : x ++ "_" ≠ "errno" := append_underscore_ne (by decide)
    exact escape_eq_self hd (not_isKeyword_append_underscore x) (lookup_replacements_eq_none hr)
  | replaced h =>
    obtain ⟨rfl, rfl⟩ := replaced_eq h
    decide +kernel

/-- A name is left alone or bent. -/
theorem bendsTo_or_escape_eq (x : String) : BendsTo x (escape x) ∨ escape x = x := by
  cases hd : startsWithDigit x with
  | true =>
    rw [escape_digit hd]
    exact .inl (.digit hd)
  | false =>
    cases hk : isKeyword x with
    | true =>
      rw [escape_keyword hk]
      exact .inl (.keyword hk)
    | false =>
      by_cases hx : x = "errno"
      · subst hx
        exact .inl (.replaced (by decide +kernel))
      · exact .inr (escape_eq_self hd hk (lookup_replacements_eq_none hx))

/-! ### What a bent name was -/

theorem underscore_append_ne_keyword {x y : String} (h : isKeyword y = true) :
    "_" ++ x ≠ y ++ "_" := by
  obtain ⟨c, rest, hl, _⟩ := isKeyword_start h
  have hy := isKeyword_head h
  refine underscore_append_ne ?_
  rw [hl] at hy
  rw [String.toList_append, hl]
  exact hy

/-- A name is what at most one name is bent into. -/
theorem BendsTo.unique {x y z : String} (hx : BendsTo x z) (hy : BendsTo y z) : x = y := by
  rw [bendsTo_iff] at hx hy
  -- the three rules give names that begin with `_`, that end with it, and that do neither
  obtain ⟨_, hx⟩ | ⟨hkx, hx⟩ | hx := hx
  · obtain ⟨_, hy⟩ | ⟨hky, hy⟩ | hy := hy
    · exact (String.append_right_inj "_").1 (hx.symm.trans hy)
    · exact absurd (hx.symm.trans hy) (underscore_append_ne_keyword hky)
    · exact absurd (hx.symm.trans (replaced_eq hy).2) (underscore_append_ne (by decide))
  · obtain ⟨_, hy⟩ | ⟨_, hy⟩ | hy := hy
    · exact absurd (hy.symm.trans hx) (underscore_append_ne_keyword hkx)
    · exact (String.append_left_inj "_").1 (hx.symm.trans hy)
    · exact absurd (hx.symm.trans (replaced_eq hy).2) (append_underscore_ne (by decide))
  · obtain ⟨_, hy⟩ | ⟨_, hy⟩ | hy := hy
    · exact absurd (hy.symm.trans (replaced_eq hx).2) (underscore_append_ne (by decide))
    · exact absurd (hy.symm.trans (replaced_eq hx).2) (append_underscore_ne (by decide))
    · exact (replaced_eq hx).1.trans (replaced_eq hy).1.symm

theorem BendsTo.ne {x y : String} (h : BendsTo x y) : x ≠ y := by
  rintro rfl
  rw [bendsTo_iff] at h
  obtain ⟨_, h⟩ | ⟨_, h⟩ | h := h
  · have hlen := congrArg String.length h
    rw [String.length_append] at hlen
    exact absurd hlen (by simp)
  · have hlen := congrArg String.length h
    rw [String.length_append] at hlen
    exact absurd hlen (by simp)
  · have hx := replaced_eq h
    exact absurd (hx.1.symm.trans hx.2) (by decide)

theorem escape_eq_escape_iff (x y : String) :
    escape x = escape y ↔ x = y ∨ BendsTo x y ∨ BendsTo y x := by
  constructor
  · intro h
    obtain hx | hx := bendsTo_or_escape_eq x
    · obtain hy | hy := bendsTo_or_escape_eq y
      · rw [← h] at hy
        exact .inl (hx.unique hy)
      · rw [h, hy] at hx
        exact .inr (.inl hx)
    · obtain hy | hy := bendsTo_or_escape_eq y
      · rw [← h, hx] at hy
        exact .inr (.inr hy)
      · exact .inl (hx.symm.trans (h.trans hy))
  · rintro (rfl | h | h)
    · rfl
    · rw [escape_bendsTo h, escape_of_bendsTo h]
    · rw [escape_bendsTo h, escape_of_bendsTo h]

/-! ### Names of identifier characters -/

theorem sanitize_eq_self {x : String} (h : isFragment x = true) : sanitize x = x := by
  rw [isFragment, Bool.and_eq_true, List.all_eq_true] at h
  have hmap : (x.toList.map fun c => if isNameChar c then c else '_') = x.toList := by
    conv => rhs; rw [← List.map_id x.toList]
    refine List.map_congr_left fun c hc => ?_
    rw [if_pos (h.2 c hc), id]
  have hne : x.toList.isEmpty = false := by simpa using h.1
  simp [sanitize, hne, hmap]

theorem mangle_eq_mangle_iff {x y : String} (hx : isFragment x = true) (hy : isFragment y = true) :
    mangle x = mangle y ↔ x = y ∨ BendsTo x y ∨ BendsTo y x := by
  rw [mangle, mangle, sanitize_eq_self hx, sanitize_eq_self hy, escape_eq_escape_iff]

/-- Different names are given different identifiers exactly if none of them is bent into another. -/
theorem nodup_map_mangle_iff {names : List String} (hgood : ∀ x ∈ names, isFragment x = true)
    (hd : names.Nodup) :
    (names.map mangle).Nodup ↔ ∀ x ∈ names, ∀ y ∈ names, ¬ BendsTo x y := by
  rw [List.nodup_map_iff_inj_on hd]
  constructor
  · intro hinj x hx y hy h
    have heq := (mangle_eq_mangle_iff (hgood x hx) (hgood y hy)).2 (.inr (.inl h))
    exact h.ne (hinj x hx y hy heq)
  · intro hfree x hx y hy h
    obtain heq | h | h := (mangle_eq_mangle_iff (hgood x hx) (hgood y hy)).1 h
    · exact heq
    · exact absurd h (hfree x hx y hy)
    · exact absurd h (hfree y hy x hx)

end AbiLayout.Cpp
