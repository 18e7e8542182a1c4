import AbiLayout.Cpp.Declarator
import AbiLayout.Text.Identifier

/-!
# Reading declarators

The rules by which a declarator is read, as a relation between its text, the name that it declares,
and the steps that lead outwards from that name. A suffix binds before a pointer mark, so a text
stands either for any declarator or only for what a suffix may follow, and parentheses make the second
from the first. Main statement: the text of a declarator has one reading, its own name and its own
steps.
-/

namespace AbiLayout.Cpp

open Text (isIdentifier isNameChar)

/-- One step from a declared name towards the type that it finally has. -/
inductive Step where
  | pointer
  | array (count : UInt64)
deriving DecidableEq, Repr

inductive Form where
  | direct
  | whole
deriving DecidableEq, Repr

/-- A text of a form declares a name at the inner end of some steps, innermost first. -/
inductive Reads : Form → String → String → List Step → Prop where
  | name {n : String} (h : isIdentifier n = true) : Reads .direct n n []
  | group {text n : String} {l : List Step} (h : Reads .whole text n l) :
    Reads .direct ("(" ++ text ++ ")") n l
  | array {text n : String} {l : List Step} (h : Reads .direct text n l) (count : UInt64) :
    Reads .direct (text ++ "[" ++ count.toNat.repr ++ "]") n (l ++ [.array count])
  | direct {text n : String} {l : List Step} (h : Reads .direct text n l) : Reads .whole text n l
  | pointer {text n : String} {l : List Step} (h : Reads .whole text n l) :
    Reads .whole ("*" ++ text) n (l ++ [.pointer])

/-! ### A written declarator is read as it is -/

namespace Declarator

/-- The steps of a declarator, read from the name outwards. -/
def steps : Declarator → List Step
  | name _ => []
  | pointer d => d.steps ++ [.pointer]
  | array d n => d.steps ++ [.array n]

def declared : Declarator → String
  | name s => s
  | pointer d => d.declared
  | array d _ => d.declared

end Declarator

theorem reads_text (d : Declarator) (hd : isIdentifier d.declared = true) :
    Reads .whole d.text d.declared d.steps ∧
      (d.isPointer = false → Reads .direct d.text d.declared d.steps) := by
  induction d with
  | name n => exact ⟨.direct (.name hd), fun _ => .name hd⟩
  | pointer d ih =>
    have hw := (ih hd).1
    refine ⟨.pointer hw, ?_⟩
    intro hp
    simp [Declarator.isPointer] at hp
  | array d count ih =>
    have ⟨hw, hdirect⟩ := ih hd
    have h : Reads .direct (d.array count).text (d.array count).declared (d.array count).steps := by
      rw [Declarator.text]
      cases hp : d.isPointer with
      | true => exact .array (.group hw) count
      | false => exact .array (hdirect hp) count
    exact ⟨.direct h, fun _ => h⟩

/-! ### There is no second reading

A reader that goes through a text from left to right finds what the rules allow, and nothing but that.
It keeps the steps it has passed and, inside a suffix, the count read so far. -/

def readSuffixes (n : String) :
    List Step → Option Nat → List Char → Option ((String × List Step) × List Char)
  | l, none, '[' :: cs => readSuffixes n l (some 0) cs
  | l, none, cs => some ((n, l), cs)
  | l, some k, ']' :: cs => readSuffixes n (l ++ [.array (UInt64.ofNat k)]) none cs
  | l, some k, c :: cs =>
    if c.isDigit then readSuffixes n l (some (10 * k + (c.toNat - '0'.toNat))) cs else none
  | _, some _, [] => none

def readDeclarator : List Char → Option ((String × List Step) × List Char)
  | '*' :: cs => (readDeclarator cs).map fun r => ((r.1.1, r.1.2 ++ [.pointer]), r.2)
  | '(' :: cs =>
    (readDeclarator cs).bind fun r => match r.2 with
      | ')' :: rest => readSuffixes r.1.1 r.1.2 none rest
      | _ => none
  | cs => readSuffixes (String.ofList (cs.takeWhile isNameChar)) [] none (cs.dropWhile isNameChar)

theorem readSuffixes_of_no_bracket (n : String) (l : List Step) (rest : List Char)
    (h : rest.head? ≠ some '[') : readSuffixes n l none rest = some ((n, l), rest) := by
  cases rest with
  | nil => rw [readSuffixes]; simp
  | cons c rest =>
    rw [readSuffixes]
    intro cs hcs
    injection hcs with hc
    simp [hc] at h

theorem readSuffixes_open (n : String) (l : List Step) (cs : List Char) :
    readSuffixes n l none ('[' :: cs) = readSuffixes n l (some 0) cs := rfl

theorem readSuffixes_close (n : String) (l : List Step) (k : Nat) (cs : List Char) :
    readSuffixes n l (some k) (']' :: cs) =
      readSuffixes n (l ++ [.array (UInt64.ofNat k)]) none cs := rfl

theorem readSuffixes_digit (n : String) (l : List Step) (k : Nat) (c : Char) (cs : List Char)
    (hc : c.isDigit = true) :
    readSuffixes n l (some k) (c :: cs) =
      readSuffixes n l (some (10 * k + (c.toNat - '0'.toNat))) cs := by
  have hne : c = ']' → False := by
    rintro rfl
    exact absurd hc (by decide)
  simp only [readSuffixes, hc, if_true]

theorem readSuffixes_digits (n : String) (l : List Step) (ds rest : List Char) (k : Nat)
    (hds : ∀ c ∈ ds, c.isDigit = true) :
    readSuffixes n l (some k) (ds ++ ']' :: rest) =
      readSuffixes n (l ++ [.array (UInt64.ofNat (Nat.ofDigitChars 10 ds k))]) none rest := by
  induction ds generalizing k with
  | nil => rw [List.nil_append, readSuffixes_close, Nat.ofDigitChars_nil]
  | cons c ds ih =>
    have hc : c.isDigit = true := hds c (List.mem_cons_self ..)
    have htail : ∀ d ∈ ds, d.isDigit = true := fun d hd => hds d (List.mem_cons_of_mem _ hd)
    rw [List.cons_append, readSuffixes_digit n l k c _ hc, ih _ htail, Nat.ofDigitChars_cons]

/-- A suffix is read as one step into an array of its count. -/
theorem readSuffixes_count (n : String) (l : List Step) (count : UInt64) (rest : List Char) :
    readSuffixes n l none ('[' :: (count.toNat.repr.toList ++ ']' :: rest)) =
      readSuffixes n (l ++ [.array count]) none rest := by
  have hds : ∀ c ∈ Nat.toDigits 10 count.toNat, c.isDigit = true :=
    fun c hc => Nat.isDigit_of_mem_toDigits (by decide) (by decide) hc
  rw [readSuffixes_open, Nat.toList_repr, readSuffixes_digits n l _ rest 0 hds,
    Nat.ofDigitChars_ten_toDigits, UInt64.ofNat_toNat]

theorem readDeclarator_name (n : String) (rest : List Char) (hn : isIdentifier n = true)
    (hr : ∀ c, rest.head? = some c → isNameChar c = false) :
    readDeclarator (n.toList ++ rest) = readSuffixes n [] none rest := by
  simp only [isIdentifier, Text.isFragment, Bool.and_eq_true, List.all_eq_true] at hn
  have hall : ∀ c ∈ n.toList, isNameChar c = true := hn.1.2
  have htake : (n.toList ++ rest).takeWhile isNameChar = n.toList := by
    rw [List.takeWhile_append_of_pos hall]
    cases rest with
    | nil => simp
    | cons c rest => rw [List.takeWhile_cons_of_neg (by simp [hr c rfl]), List.append_nil]
  have hdrop : (n.toList ++ rest).dropWhile isNameChar = rest := by
    rw [List.dropWhile_append_of_pos hall]
    cases rest with
    | nil => rfl
    | cons c rest => rw [List.dropWhile_cons_of_neg (by simp [hr c rfl])]
  rw [readDeclarator, htake, hdrop, String.ofList_toList]
  -- neither of the marks that open a declarator is a character of a name
  all_goals
    intro cs hcs
    cases hnl : n.toList with
    | nil => simp [hnl] at hn
    | cons c tail =>
      rw [hnl, List.cons_append] at hcs
      have hc := hall c (by rw [hnl]; exact List.mem_cons_self ..)
      rw [(List.cons.inj hcs).1] at hc
      exact absurd hc (by decide)

/-- Where a text of a form can end: before what cannot belong to it. -/
def Form.EndsBefore (form : Form) (rest : List Char) : Prop :=
  (∀ c, rest.head? = some c → isNameChar c = false) ∧ (form = .whole → rest.head? ≠ some '[')

theorem Form.endsBefore_of_not_nameChar (form : Form) (c : Char) (rest : List Char)
    (hc : isNameChar c = false) (hb : form = .whole → c ≠ '[') : form.EndsBefore (c :: rest) := by
  refine ⟨?_, ?_⟩
  · intro d hd
    rw [← Option.some.inj hd]
    exact hc
  · intro hw he
    exact hb hw (Option.some.inj he)

theorem Reads.readDeclarator {form : Form} {text n : String} {l : List Step}
    (h : Reads form text n l) (rest : List Char) (hr : form.EndsBefore rest) :
    readDeclarator (text.toList ++ rest) = readSuffixes n l none rest := by
  induction h generalizing rest with
  | name hn => exact readDeclarator_name _ rest hn hr.1
  | @group text n l hw ih =>
    have hin := ih (')' :: rest) (Form.endsBefore_of_not_nameChar _ _ _ (by decide) (by decide))
    rw [readSuffixes_of_no_bracket n l (')' :: rest) (by simp)] at hin
    have htext : ("(" ++ text ++ ")").toList ++ rest = '(' :: (text.toList ++ ')' :: rest) := by
      simp [String.toList_append]
    rw [htext, Cpp.readDeclarator, hin]
    rfl
  | @array text n l hd count ih =>
    have hin := ih ('[' :: (count.toNat.repr.toList ++ ']' :: rest))
      (Form.endsBefore_of_not_nameChar _ _ _ (by decide) (by decide))
    have htext : (text ++ "[" ++ count.toNat.repr ++ "]").toList ++ rest =
        text.toList ++ '[' :: (count.toNat.repr.toList ++ ']' :: rest) := by
      simp [String.toList_append]
    rw [htext, hin, readSuffixes_count]
  | direct hd ih => exact ih rest ⟨hr.1, fun h => by cases h⟩
  | @pointer text n l hw ih =>
    have hin := ih rest hr
    rw [readSuffixes_of_no_bracket n l rest (hr.2 rfl)] at hin
    have htext : ("*" ++ text).toList ++ rest = '*' :: (text.toList ++ rest) := by
      simp [String.toList_append]
    rw [htext, Cpp.readDeclarator, hin, readSuffixes_of_no_bracket _ _ rest (hr.2 rfl)]
    rfl

theorem Reads.unique {text n m : String} {l k : List Step} (h : Reads .whole text n l)
    (h' : Reads .whole text m k) : m = n ∧ k = l := by
  have hend : Form.whole.EndsBefore [] := ⟨by simp, by simp⟩
  have hn := h.readDeclarator [] hend
  have hm := h'.readDeclarator [] hend
  rw [readSuffixes_of_no_bracket _ _ [] (by simp)] at hn hm
  rw [hn] at hm
  simp only [Option.some.injEq, Prod.mk.injEq, and_true] at hm
  exact ⟨hm.1.symm, hm.2.symm⟩

theorem reads_text_iff (d : Declarator) (hd : isIdentifier d.declared = true) (n : String)
    (l : List Step) : Reads .whole d.text n l ↔ n = d.declared ∧ l = d.steps := by
  constructor
  · intro h
    exact (reads_text d hd).1.unique h
  · rintro ⟨rfl, rfl⟩
    exact (reads_text d hd).1

end AbiLayout.Cpp
