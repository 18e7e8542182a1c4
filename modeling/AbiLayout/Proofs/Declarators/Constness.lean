import AbiLayout.Proofs.Declarators.Shape
import Mathlib.Tactic.ByContra

/-!
# What a declaration tells about its type

All marks of constant targets stand in front of the declaration, so its text holds how many pointers
have one, and not which. Main statement: over integers, two types are declared by one text exactly if
they agree in their steps, their integer and that number; a text has a single type exactly if none or
all of the pointers have a constant target.
-/

namespace AbiLayout

open Cpp

namespace AbiType

/-- Pointers and arrays over an integer, and nothing else. -/
def overInteger : AbiType → Bool
  | .pointer target _ => target.overInteger
  | .array element _ => element.overInteger
  | .int _ => true
  | _ => false

theorem base_of_overInteger (t : AbiType) (h : t.overInteger = true) : ∃ kind, t.base = .int kind := by
  induction t using AbiType.base.induct with
  | case1 target constant ih => exact ih h
  | case2 element count ih => exact ih h
  | case3 t hp ha =>
    cases t with
    | int kind => exact ⟨kind, rfl⟩
    | pointer target constant => exact (hp target constant rfl).elim
    | array element count => exact (ha element count rfl).elim
    | _ => simp [overInteger] at h

/-- Types of the same steps over the same base are met together, level by level. -/
theorem same_steps_induction {P : AbiType → AbiType → Prop}
    (pointer : ∀ t u c d, P t u → P (.pointer t c) (.pointer u d))
    (array : ∀ t u n, P t u → P (.array t n) (.array u n)) (base : ∀ t, P t t) (t u : AbiType)
    (hc : t.chain = u.chain) (hb : t.base = u.base) : P t u := by
  induction t using AbiType.base.induct generalizing u with
  | case1 target constant ih =>
    cases u with
    | pointer target' constant' =>
      exact pointer target target' constant constant' (ih target' (List.cons.inj hc).2 hb)
    | _ => simp [chain] at hc
  | case2 element count ih =>
    cases u with
    | array element' count' =>
      obtain ⟨hs, hr⟩ := List.cons.inj hc
      obtain rfl : count = count' := Step.array.inj hs
      exact array element element' count (ih element' hr hb)
    | _ => simp [chain] at hc
  | case3 t hp ha =>
    obtain ⟨htc, htb, _⟩ := at_base t hp ha
    have hu : u.base = u := by
      cases u with
      | pointer target constant => simp [chain, htc] at hc
      | array element count => simp [chain, htc] at hc
      | _ => rfl
    rw [htb, hu] at hb
    rw [hb]
    exact base u

theorem eq_of_constants (t u : AbiType) (hc : t.chain = u.chain) (hb : t.base = u.base)
    (hk : t.constants = u.constants) : t = u := by
  revert hk
  refine same_steps_induction (P := fun t u => t.constants = u.constants → t = u) ?_ ?_ ?_ t u hc hb
  · intro t u c d ih hk
    obtain ⟨rfl, htail⟩ := List.cons.inj hk
    rw [ih htail]
  · intro t u n ih hk
    rw [ih hk]
  · intro t _
    rfl

theorem length_constants (t u : AbiType) (hc : t.chain = u.chain) (hb : t.base = u.base) :
    t.constants.length = u.constants.length := by
  refine same_steps_induction (P := fun t u => t.constants.length = u.constants.length)
    ?_ ?_ ?_ t u hc hb
  · intro t u c d ih
    simp only [constants, List.length_cons, ih]
  · intro t u n ih
    exact ih
  · intro t
    rfl

/-- The type with other marks, taken in turn from a list. -/
def remark : AbiType → List Bool → AbiType
  | .pointer target _, c :: rest => .pointer (target.remark rest) c
  | .array element count, marks => .array (element.remark marks) count
  | t, _ => t

theorem remark_spec (t : AbiType) (marks : List Bool) (h : marks.length = t.constants.length) :
    (t.remark marks).chain = t.chain ∧ (t.remark marks).base = t.base ∧
      (t.remark marks).constants = marks := by
  induction t using AbiType.base.induct generalizing marks with
  | case1 target constant ih =>
    cases marks with
    | nil => simp [constants] at h
    | cons c rest =>
      simp only [constants, List.length_cons, Nat.add_right_cancel_iff] at h
      obtain ⟨hc, hb, hk⟩ := ih rest h
      simp only [remark, chain, base, constants, hc, hb, hk, and_self]
  | case2 element count ih =>
    obtain ⟨hc, hb, hk⟩ := ih marks h
    simp only [remark, chain, base, constants, hc, hb, hk, and_self]
  | case3 t hp ha =>
    have hr : t.remark marks = t := by
      cases t with
      | pointer target constant => exact (hp target constant rfl).elim
      | array element count => exact (ha element count rfl).elim
      | _ => rfl
    obtain ⟨_, _, hk⟩ := at_base t hp ha
    rw [hk, List.length_nil, List.length_eq_zero_iff] at h
    rw [hr, h]
    exact ⟨rfl, rfl, hk⟩

theorem overInteger_of_base (t : AbiType) {kind : Integral} (h : t.base = .int kind) :
    t.overInteger = true := by
  induction t using AbiType.base.induct with
  | case1 target constant ih => exact ih h
  | case2 element count ih => exact ih h
  | case3 t hp ha =>
    obtain ⟨_, hb, _⟩ := at_base t hp ha
    rw [hb] at h
    rw [h]
    rfl

end AbiType

/-! ### Marks that only a count remembers -/

/-- Marks are known from their number where none or all of them are set. -/
theorem marks_eq_of_extreme (l k : List Bool) (hlen : k.length = l.length)
    (hcount : k.count true = l.count true) (h : l.count true = 0 ∨ l.count true = l.length) :
    k = l := by
  have hsame : ∀ b : Bool, (∀ x ∈ l, b = x) → (∀ x ∈ k, b = x) → k = l := by
    intro b hl hk
    rw [List.eq_replicate_iff.2 ⟨rfl, fun x hx => (hl x hx).symm⟩,
      List.eq_replicate_iff.2 ⟨rfl, fun x hx => (hk x hx).symm⟩, hlen]
  rcases h with h | h
  · have hfalse : ∀ m : List Bool, m.count true = 0 → ∀ x ∈ m, false = x := by
      intro m hm x hx
      cases x with
      | false => rfl
      | true => exact absurd hx (List.count_eq_zero.1 hm)
    exact hsame false (hfalse l h) (hfalse k (hcount.trans h))
  · refine hsame true (List.count_eq_length.1 h) (List.count_eq_length.1 ?_)
    rw [hcount, h, hlen]

/-- Where some but not all marks are set, others are as many and as many set. -/
theorem exists_other_marks (l : List Bool) (h0 : l.count true ≠ 0)
    (hl : l.count true ≠ l.length) :
    ∃ k, k ≠ l ∧ k.length = l.length ∧ k.count true = l.count true := by
  have hle : l.count true ≤ l.length := List.count_le_length
  obtain ⟨c, hc⟩ : ∃ c, l.count true = c + 1 := Nat.exists_eq_succ_of_ne_zero h0
  obtain ⟨r, hr⟩ : ∃ r, l.length = c + 1 + (r + 1) := ⟨l.length - (c + 2), by omega⟩
  let marked := List.replicate (c + 1) true
  let unmarked := List.replicate (r + 1) false
  have hlen : (marked ++ unmarked).length = l.length := by
    simp [marked, unmarked, hr]
  have hcount : (marked ++ unmarked).count true = l.count true := by
    simp [marked, unmarked, List.count_replicate, hc]
  have hperm : (unmarked ++ marked).Perm (marked ++ unmarked) := List.perm_append_comm
  by_cases he : marked ++ unmarked = l
  · refine ⟨unmarked ++ marked, ?_, hperm.length_eq.trans hlen, (hperm.count_eq true).trans hcount⟩
    rw [← he]
    simp [marked, unmarked, List.replicate_succ]
  · exact ⟨marked ++ unmarked, he, hlen, hcount⟩

namespace Cpp

open Text (isIdentifier)

/-! ### Taking a declaration apart -/

theorem split_chars_at_blank {a b x y : List Char} (ha : ' ' ∉ a) (hb : ' ' ∉ b)
    (h : a ++ ' ' :: x = b ++ ' ' :: y) : a = b ∧ x = y := by
  induction a generalizing b with
  | nil =>
    cases b with
    | nil => exact ⟨rfl, (List.cons.inj h).2⟩
    | cons c b =>
      rw [← (List.cons.inj h).1] at hb
      exact absurd (List.mem_cons_self ..) hb
  | cons c a ih =>
    cases b with
    | nil =>
      rw [(List.cons.inj h).1] at ha
      exact absurd (List.mem_cons_self ..) ha
    | cons d b =>
      obtain ⟨rfl, htail⟩ := List.cons.inj h
      obtain ⟨rfl, hxy⟩ := ih (fun hm => ha (List.mem_cons_of_mem _ hm))
        (fun hm => hb (List.mem_cons_of_mem _ hm)) htail
      exact ⟨rfl, hxy⟩

theorem split_at_blank {a b x y : String} (ha : ' ' ∉ a.toList) (hb : ' ' ∉ b.toList)
    (h : a ++ " " ++ x = b ++ " " ++ y) : a = b ∧ x = y := by
  have hl := congrArg String.toList h
  have hblank : " ".toList = [' '] := rfl
  simp only [String.toList_append, hblank, List.append_assoc, List.singleton_append] at hl
  obtain ⟨hab, hxy⟩ := split_chars_at_blank ha hb hl
  exact ⟨String.toList_injective hab, String.toList_injective hxy⟩

/-- Marks end where a word begins that is none. -/
theorem split_marks {a b x y : String} (j k : Nat) (ha : ' ' ∉ a.toList) (hb : ' ' ∉ b.toList)
    (ha' : a ≠ "const") (hb' : b ≠ "const")
    (h : constantMarks j ++ (a ++ " " ++ x) = constantMarks k ++ (b ++ " " ++ y)) :
    j = k ∧ a = b ∧ x = y := by
  have hmark : ∀ (i : Nat) (z : String),
      constantMarks (i + 1) ++ z = "const" ++ " " ++ (constantMarks i ++ z) := by
    intro i z
    rw [constantMarks, String.append_assoc]
    rfl
  have hblank : ' ' ∉ "const".toList := by decide
  induction j generalizing k with
  | zero =>
    cases k with
    | zero =>
      simp only [constantMarks, String.empty_append] at h
      exact ⟨rfl, split_at_blank ha hb h⟩
    | succ k =>
      rw [hmark, constantMarks, String.empty_append] at h
      exact absurd (split_at_blank ha hblank h).1 ha'
  | succ j ih =>
    cases k with
    | zero =>
      rw [hmark, constantMarks, String.empty_append] at h
      exact absurd (split_at_blank hb hblank h.symm).1 hb'
    | succ k =>
      rw [hmark, hmark] at h
      obtain ⟨hjk, hrest⟩ := ih k (split_at_blank hblank hblank h).2
      exact ⟨by omega, hrest⟩

theorem generatedIntegral_word (kind : Integral) :
    ' ' ∉ (generatedIntegral kind).toList ∧ generatedIntegral kind ≠ "const" := by
  cases kind <;> decide

theorem generatedIntegral_injective {k l : Integral} (h : generatedIntegral k = generatedIntegral l) :
    k = l := by
  have hall : ∀ a ∈ Integral.all, ∀ b ∈ Integral.all,
      generatedIntegral a = generatedIntegral b → a = b := by decide
  exact hall k (Integral.mem_all k) l (Integral.mem_all l) h

theorem qualify_eq_iff (constant : Bool) (k : Nat) (text x : String) :
    qualify constant text = constantMarks (constant.toNat + k) ++ x ↔
      text = constantMarks k ++ x := by
  rw [← qualify_append_marks]
  cases constant <;> simp [qualify]

namespace Spelling

theorem spellThrough_pointer_iff (s : Spelling) (t : AbiType) (c : Bool) (d : Declarator)
    (x : String) :
    s.spellThrough (.pointer t c) d =
        .ok (constantMarks (AbiType.pointer t c).constantCount ++ x) ↔
      s.spellThrough t (.pointer d) = .ok (constantMarks t.constantCount ++ x) := by
  rw [spellThrough, bind_eq_ok_iff, AbiType.constantCount_pointer]
  constructor
  · rintro ⟨text, ht, hq⟩
    rw [ht, (qualify_eq_iff c _ text x).1 (Except.ok.inj hq)]
  · intro ht
    exact ⟨_, ht, congrArg Except.ok ((qualify_eq_iff c _ _ x).2 rfl)⟩

/-- Behind its marks, a declaration depends on the steps and the base alone. -/
theorem spellThrough_of_same_steps (s : Spelling) (t u : AbiType) (hc : t.chain = u.chain)
    (hb : t.base = u.base) (d : Declarator) (x : String) :
    s.spellThrough t d = .ok (constantMarks t.constantCount ++ x) ↔
      s.spellThrough u d = .ok (constantMarks u.constantCount ++ x) := by
  revert d
  refine AbiType.same_steps_induction (P := fun t u => ∀ d : Declarator,
    s.spellThrough t d = .ok (constantMarks t.constantCount ++ x) ↔
      s.spellThrough u d = .ok (constantMarks u.constantCount ++ x)) ?_ ?_ ?_ t u hc hb
  · intro t u c c' ih d
    rw [spellThrough_pointer_iff, spellThrough_pointer_iff]
    exact ih (.pointer d)
  · intro t u n ih d
    rw [spellThrough, spellThrough, bind_eq_ok_iff, bind_eq_ok_iff]
    simp only [AbiType.constantCount_array, ih]
  · intro t d
    exact Iff.rfl

end Spelling

theorem spell_int {s : Spelling} {t : AbiType} {kind : Integral} (ht : t.base = .int kind)
    {leaf : String} (h : s.spell t.base = .ok leaf) : leaf = s.integral kind := by
  rw [ht, Spelling.spell] at h
  exact (Except.ok.inj h).symm

/-- One text over integers fixes the steps, the integer and the number of marks. -/
theorem same_parts_of_same_text (t u : AbiType) (n text : String) (ht : t.overInteger = true)
    (hu : u.overInteger = true) (hn : isIdentifier n = true)
    (h : generated.declaration t n = .ok text) (h' : generated.declaration u n = .ok text) :
    u.chain = t.chain ∧ u.base = t.base ∧ u.constantCount = t.constantCount := by
  obtain ⟨leaf, hl, htext⟩ := generated.spellThrough_eq_ok t (.name n) h
  obtain ⟨leaf', hl', htext'⟩ := generated.spellThrough_eq_ok u (.name n) h'
  obtain ⟨k, hk⟩ := t.base_of_overInteger ht
  obtain ⟨k', hk'⟩ := u.base_of_overInteger hu
  obtain rfl := spell_int hk hl
  obtain rfl := spell_int hk' hl'
  obtain ⟨hb, hc⟩ := generatedIntegral_word k
  obtain ⟨hb', hc'⟩ := generatedIntegral_word k'
  rw [htext] at htext'
  obtain ⟨hcount, hleaf, hshape⟩ := split_marks _ _ hb hb' hc hc' htext'
  have hread := (reads_along_iff n n t.chain t.chain hn).2 ⟨rfl, rfl⟩
  rw [hshape, reads_along_iff n n u.chain t.chain hn] at hread
  refine ⟨hread.2.symm, ?_, hcount.symm⟩
  rw [hk, hk', generatedIntegral_injective hleaf]

/-- What a text over integers tells: the steps, the integer, and how many pointers have a constant
target. It tells the type exactly if none or all of them have. -/
theorem declaration_text_determines (t : AbiType) (n text : String) (ht : t.overInteger = true)
    (hn : isIdentifier n = true) (h : generated.declaration t n = .ok text) :
    (∀ u : AbiType, u.overInteger = true →
      (generated.declaration u n = .ok text ↔
        u.chain = t.chain ∧ u.base = t.base ∧ u.constantCount = t.constantCount)) ∧
    ((∀ u : AbiType, u.overInteger = true → generated.declaration u n = .ok text → u = t) ↔
      t.constantCount = 0 ∨ t.constantCount = t.constants.length) := by
  have hsame : ∀ u : AbiType, u.overInteger = true →
      (generated.declaration u n = .ok text ↔
        u.chain = t.chain ∧ u.base = t.base ∧ u.constantCount = t.constantCount) := by
    intro u hu
    constructor
    · exact same_parts_of_same_text t u n text ht hu hn h
    · rintro ⟨hc, hb, hk⟩
      obtain ⟨leaf, _, htext⟩ := generated.spellThrough_eq_ok t (.name n) h
      show generated.spellThrough u (.name n) = .ok text
      rw [htext, ← hk, generated.spellThrough_of_same_steps u t hc hb, ← htext]
      exact h
  refine ⟨hsame, ?_, ?_⟩
  · intro hone
    by_contra hmixed
    rw [not_or] at hmixed
    obtain ⟨marks, hne, hlen, hcount⟩ := exists_other_marks t.constants hmixed.1 hmixed.2
    obtain ⟨hc, hb, hk⟩ := t.remark_spec marks hlen
    obtain ⟨kind, hkind⟩ := t.base_of_overInteger ht
    have hover := AbiType.overInteger_of_base (t.remark marks) (hb.trans hkind)
    have hcountAll : (t.remark marks).constantCount = t.constantCount := by
      rw [AbiType.constantCount, hk, hcount, AbiType.constantCount]
    have heq := hone (t.remark marks) hover ((hsame _ hover).2 ⟨hc, hb, hcountAll⟩)
    rw [heq] at hk
    exact hne hk.symm
  · intro hextreme u hu hdecl
    obtain ⟨hc, hb, hk⟩ := (hsame u hu).1 hdecl
    have hlen := AbiType.length_constants u t hc hb
    exact AbiType.eq_of_constants u t hc hb (marks_eq_of_extreme _ _ hlen hk hextreme)

/-- One of two pointers has a constant target, so the text does not tell the type. -/
theorem declaration_text_determines_matrix :
    (AbiType.pointer (.array (.pointer (.int .uint8) true) 4) false).overInteger = true ∧
      isIdentifier "p" = true ∧
      generated.declaration (.pointer (.array (.pointer (.int .uint8) true) 4) false) "p" =
        .ok "const std::uint8_t *(*p)[4]" ∧
      (∀ u : AbiType, u.overInteger = true →
        (generated.declaration u "p" = .ok "const std::uint8_t *(*p)[4]" ↔
          u.chain = [.pointer, .array 4, .pointer] ∧ u.base = .int .uint8 ∧
            u.constantCount = 1)) ∧
      ¬ ∀ u : AbiType, u.overInteger = true →
        generated.declaration u "p" = .ok "const std::uint8_t *(*p)[4]" →
          u = .pointer (.array (.pointer (.int .uint8) true) 4) false := by
  have h := declaration_text_determines (.pointer (.array (.pointer (.int .uint8) true) 4) false)
    "p" "const std::uint8_t *(*p)[4]" rfl (by decide) rfl
  refine ⟨rfl, by decide, rfl, h.1, ?_⟩
  rw [h.2]
  decide

/-- Two types that differ in which pointer has the constant target, and their one text. -/
theorem constant_level_is_not_written :
    generated.declaration (.pointer (.pointer (.int .char) true) false) "p" =
        .ok "const char **p" ∧
      generated.declaration (.pointer (.pointer (.int .char) false) true) "p" =
        .ok "const char **p" ∧
      AbiType.pointer (.pointer (.int .char) true) false ≠
        AbiType.pointer (.pointer (.int .char) false) true := by
  refine ⟨rfl, rfl, ?_⟩
  intro h
  injection h with _ hc
  exact absurd hc (by decide)

end Cpp

end AbiLayout
