import AbiLayout.Proofs.Documents.Accepting
import AbiLayout.Yaml.Tree

/-!
# How YAML presents single values

Texts in quotes, and truth values, numbers and null plain. Main statement: each of them is read for what
it presents; a number has to be told from one to another base and from digits after a leading zero.
-/

namespace AbiLayout.Yaml

open Document

def script : Script Scalar where
  text s := ⟨s, .quoted, none⟩
  flag b := ⟨if b then "true" else "false", .plain, none⟩
  natural n := ⟨n.repr, .plain, none⟩
  nothing := ⟨"null", .plain, none⟩
  structsAsSequences := false

/-! ### Numbers -/

theorem digit?_of_isDigit {c : Char} (h : c.isDigit = true) :
    digit? 10 c = some (c.toNat - '0'.toNat) := by
  have hbounds := Char.isDigit_iff_toNat.mp h
  have hlt : c.toNat - '0'.toNat < 10 := by
    simp only [Char.reduceToNat] at hbounds ⊢
    omega
  rw [digit?, if_pos h]
  exact if_pos hlt

theorem foldlM_digit? {cs : List Char} (h : ∀ c ∈ cs, c.isDigit = true) (n : Nat) :
    cs.foldlM (fun n c => do return 10 * n + (← digit? 10 c)) n = some (Nat.ofDigitChars 10 cs n) := by
  induction cs generalizing n with
  | nil => rfl
  | cons c rest ih =>
    rw [List.forall_mem_cons] at h
    rw [List.foldlM_cons, digit?_of_isDigit h.1, Nat.ofDigitChars_cons]
    exact ih h.2 _

theorem natural?_toDigits (n : Nat) : natural? 10 (Nat.toDigits 10 n) = some n := by
  have hdigits : ∀ c ∈ Nat.toDigits 10 n, c.isDigit = true := fun c hc =>
    Nat.isDigit_of_mem_toDigits (by decide) (by decide) hc
  rw [natural?, if_neg (by simp), foldlM_digit? hdigits,
    Nat.ofDigitChars_toDigits (by decide) (by decide)]

theorem head?_toDigits_ne_zero {n : Nat} (h : 0 < n) : (Nat.toDigits 10 n).head? ≠ some '0' := by
  induction n using Nat.strongRecOn with
  | ind n ih =>
    rw [Nat.toDigits_eq_if (by decide)]
    split
    · simpa using Nat.pos_iff_ne_zero.mp h
    · have htens := ih (n / 10) (by omega) (by omega)
      rwa [List.head?_append_of_ne_nil _ Nat.toDigits_ne_nil]

/-- The digits of a number begin with a zero only if there is no other. -/
theorem toDigits_eq_cons (n : Nat) :
    ∃ c rest, Nat.toDigits 10 n = c :: rest ∧ c.isDigit = true ∧ (rest = [] ∨ c ≠ '0') := by
  obtain ⟨c, rest, hcons⟩ := List.exists_cons_of_ne_nil (Nat.toDigits_ne_nil (n := n) (b := 10))
  have hc : c ∈ Nat.toDigits 10 n := by simp [hcons]
  refine ⟨c, rest, hcons, Nat.isDigit_of_mem_toDigits (by decide) (by decide) hc, ?_⟩
  cases n with
  | zero =>
    rw [Nat.toDigits_zero] at hcons
    exact .inl (List.cons.inj hcons).2.symm
  | succ n =>
    have hhead := head?_toDigits_ne_zero n.succ_pos
    rw [hcons] at hhead
    exact .inr fun hzero => hhead (by rw [hzero]; rfl)

theorem positive?_toDigits (n : Nat) : positive? (Nat.toDigits 10 n) = some n := by
  have hnatural := natural?_toDigits n
  obtain ⟨c, rest, hcons, hc, hzero⟩ := toDigits_eq_cons n
  rw [hcons] at hnatural ⊢
  have hminus : c ≠ '-' := fun h => absurd (h ▸ hc) (by decide)
  have hplus : c ≠ '+' := fun h => absurd (h ▸ hc) (by decide)
  have hpadded : isZeroPadded (c :: rest) = false := by
    obtain rfl | hzero := hzero
    · simp [isZeroPadded, hminus, hplus]
    · simp [isZeroPadded, hminus, hplus, hzero]
  have hbased : based? (c :: rest) = none := by
    obtain rfl | hzero := hzero
    · simp [based?]
    · simp [based?, hzero]
  have hmagnitude : magnitude? (c :: rest) = some n := by
    rw [magnitude?, hbased, Option.bind_none]
    exact hnatural
  rw [positive?.eq_def, hpadded, if_neg (by simp)]
  split
  · next h => exact absurd (List.cons.inj h).1 hplus
  · exact hmagnitude

theorem word?_repr (w : UInt64) : word? w.toNat.repr = some w := by
  have hlt : w.toNat < UInt64.size := w.toNat_lt
  rw [word?, Nat.toList_repr, positive?_toDigits, Option.bind_some, if_pos hlt, UInt64.ofNat_toNat]

theorem script_readBy_format : script.ReadBy format where
  text _ := rfl
  found _ := rfl
  untagged _ := rfl
  flag b := by cases b <;> rfl
  word := word?_repr
  something _ := rfl
  nothing := rfl
  sequences h := by cases h

end AbiLayout.Yaml
