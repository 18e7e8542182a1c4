import Mathlib.Data.List.Induction
import AbiLayout.Description.Model
import AbiLayout.Proofs.Models.NamesFound
import AbiLayout.Proofs.Names.Declarable

/-!
# Lists of types that make a model

Main statement: a list of types makes a model exactly if every name found anywhere in its types can be
spelled for its kind and no two of the types share a name; otherwise what is reported is the fault of the
first type that holds a bad name or repeats the name of an earlier one.
-/

namespace AbiLayout

/-- A name that canonical code can spell. Names of members and alternatives stand on their own there, so
these do not begin with a digit. -/
structure NamedPart.Spellable (p : NamedPart) : Prop where
  nonempty : p.name.toList ≠ []
  chars : ∀ c ∈ p.name.toList, c.isAlphanum = true ∨ c = '_'
  start : p.kind = .member ∨ p.kind = .alternative → ∀ c ∈ p.name.toList.head?, c.isDigit = false

namespace Text

theorem isNameChar_iff (c : Char) : isNameChar c = true ↔ c.isAlphanum = true ∨ c = '_' := by
  simp [isNameChar]

theorem startsWithDigit_eq_false_iff (x : String) :
    startsWithDigit x = false ↔ ∀ c ∈ x.toList.head?, c.isDigit = false := by
  unfold startsWithDigit
  cases x.toList with
  | nil => simp
  | cons c rest => simp

end Text

open Text in
theorem NamedPart.isGood_iff_spellable (p : NamedPart) : p.isGood = true ↔ p.Spellable := by
  have hchars : (∀ c ∈ p.name.toList, isNameChar c = true) ↔
      ∀ c ∈ p.name.toList, c.isAlphanum = true ∨ c = '_' := by
    simp only [isNameChar_iff]
  obtain ⟨kind, name⟩ := p
  have hpasted : isFragment name = true ↔
      name.toList ≠ [] ∧ ∀ c ∈ name.toList, c.isAlphanum = true ∨ c = '_' := by
    rw [isFragment_iff, hchars]
  have halone : isIdentifier name = true ↔
      (name.toList ≠ [] ∧ ∀ c ∈ name.toList, c.isAlphanum = true ∨ c = '_') ∧
        ∀ c ∈ name.toList.head?, c.isDigit = false := by
    rw [isIdentifier_iff, hpasted, startsWithDigit_eq_false_iff]
  cases kind with
  | member =>
    refine halone.trans ⟨?_, fun h => ⟨⟨h.nonempty, h.chars⟩, h.start (.inl rfl)⟩⟩
    rintro ⟨⟨hnonempty, hchars⟩, hstart⟩
    exact ⟨hnonempty, hchars, fun _ => hstart⟩
  | alternative =>
    refine halone.trans ⟨?_, fun h => ⟨⟨h.nonempty, h.chars⟩, h.start (.inr rfl)⟩⟩
    rintro ⟨⟨hnonempty, hchars⟩, hstart⟩
    exact ⟨hnonempty, hchars, fun _ => hstart⟩
  | type | value | valueInfix =>
    refine hpasted.trans ⟨?_, fun h => ⟨h.nonempty, h.chars⟩⟩
    rintro ⟨hnonempty, hchars⟩
    refine ⟨hnonempty, hchars, ?_⟩
    rintro (hkind | hkind) <;> cases hkind

namespace AbiType

/-- Every name found anywhere in a type can be spelled. -/
def Clean (t : AbiType) : Prop := ∀ p, t.Holds p → p.Spellable

/-- The first bad name of a type, in the order in which its names are visited. -/
def FirstBad (t : AbiType) (part : NamedPart) : Prop :=
  ∃ before after, t.names = before ++ part :: after ∧ (∀ p ∈ before, p.Spellable) ∧ ¬ part.Spellable

theorem wellNamed_iff_clean (t : AbiType) : t.WellNamed ↔ t.Clean := by
  simp only [WellNamed, Clean, t.mem_names_iff, NamedPart.isGood_iff_spellable]

theorem badName?_eq_some_iff (t : AbiType) (part : NamedPart) :
    t.badName? = some part ↔ t.FirstBad part := by
  rw [badName?, List.find?_eq_some_iff_append, FirstBad]
  simp only [Bool.not_not, Bool.not_eq_true', ← NamedPart.isGood_iff_spellable, Bool.not_eq_true]
  constructor
  · rintro ⟨hbad, before, after, heq, hgood⟩
    exact ⟨before, after, heq, hgood, hbad⟩
  · rintro ⟨before, after, heq, hgood, hbad⟩
    exact ⟨hbad, before, after, heq, hgood⟩

/-- A bad name is reported before a repeated one. -/
theorem fault?_eq_some_iff (seen : List String) (t : AbiType) (e : ModelError) :
    t.fault? seen = some e ↔ (∃ part, t.FirstBad part ∧ e = .badName part) ∨
      (t.Clean ∧ ∃ n, t.name? = some n ∧ n ∈ seen ∧ e = .duplicateType n) := by
  have hclean := t.badName?_eq_none_iff.trans t.wellNamed_iff_clean
  simp only [← badName?_eq_some_iff, ← hclean, fault?]
  cases t.badName? with
  | some part => simp [eq_comm]
  | none =>
    cases t.name? with
    | none => simp
    | some name => simp [eq_comm]

end AbiType

theorem clean_iff_no_fault (types : List AbiType) :
    typesFault? [] types = none ↔
      (∀ t ∈ types, t.Clean) ∧ (types.filterMap AbiType.name?).Nodup := by
  rw [typesFault?_eq_none_iff]
  simp only [AbiType.wellNamed_iff_clean, List.not_mem_nil, not_false_iff, implies_true, and_true]

theorem typesFault?_congr {seen seen' : List String} (types : List AbiType)
    (h : ∀ n, n ∈ seen ↔ n ∈ seen') : typesFault? seen types = typesFault? seen' types := by
  induction types generalizing seen seen' with
  | nil => rfl
  | cons t rest ih =>
    have hrest : typesFault? (t.name?.toList ++ seen) rest = typesFault? (t.name?.toList ++ seen') rest := by
      refine ih fun n => ?_
      rw [List.mem_append, List.mem_append, h]
    rw [typesFault?, typesFault?, t.fault?_congr h, hrest]

/-- Types without a fault leave it to those behind them, which are told of their names. -/
theorem typesFault?_append (seen : List String) (before after : List AbiType) :
    typesFault? seen (before ++ after) =
      (typesFault? seen before).or (typesFault? (before.filterMap AbiType.name? ++ seen) after) := by
  induction before generalizing seen with
  | nil => rfl
  | cons t rest ih =>
    rw [List.cons_append, typesFault?, typesFault?]
    cases t.fault? seen with
    | some e => rfl
    | none =>
      have hnames : ∀ n, n ∈ rest.filterMap AbiType.name? ++ (t.name?.toList ++ seen) ↔
          n ∈ (t :: rest).filterMap AbiType.name? ++ seen := by
        intro n
        cases hn : t.name? with
        | none => simp [hn]
        | some name => simp [hn, or_left_comm]
      rw [ih, typesFault?_congr after hnames]

/-- The fault of a list is that of its first type at fault, told after the names of the types before. -/
theorem typesFault?_eq_some_iff (seen : List String) (types : List AbiType) (e : ModelError) :
    typesFault? seen types = some e ↔ ∃ before t after, types = before ++ t :: after ∧
      typesFault? seen before = none ∧ t.fault? (before.filterMap AbiType.name? ++ seen) = some e := by
  constructor
  · intro h
    -- the induction takes types off the end, so that those in front keep their place
    induction types using List.reverseRecOn with
    | nil => cases h
    | append_singleton init t ih =>
      rw [typesFault?_append] at h
      cases hinit : typesFault? seen init with
      | some fault =>
        rw [hinit, Option.some_or] at h
        obtain ⟨before, u, after, rfl, hnone, hu⟩ := ih (hinit.trans h)
        exact ⟨before, u, after ++ [t], by simp, hnone, hu⟩
      | none =>
        refine ⟨init, t, [], rfl, hinit, ?_⟩
        rw [hinit, Option.none_or, typesFault?] at h
        cases hfault : t.fault? (init.filterMap AbiType.name? ++ seen) with
        | some fault => simpa only [hfault] using h
        | none =>
          rw [hfault] at h
          cases h
  · rintro ⟨before, t, after, rfl, hnone, hfault⟩
    rw [typesFault?_append, hnone, Option.none_or, typesFault?, hfault]

/-- A list of types makes a model exactly if all names in it can be spelled and its types have different
names. If it does not, the error is the fault of the first type that holds a bad name or bears the name of
an earlier one: its first bad name, or else the name. -/
theorem Model.build_accepts_iff (name : String) (types : List AbiType) :
    ((∃ m, Model.build name types = .ok m) ↔
      (∀ t ∈ types, ∀ p, t.Holds p → p.Spellable) ∧ (types.filterMap AbiType.name?).Nodup) ∧
    ∀ e, Model.build name types = .error e ↔ ∃ before t after, types = before ++ t :: after ∧
      (∀ u ∈ before, ∀ p, u.Holds p → p.Spellable) ∧ (before.filterMap AbiType.name?).Nodup ∧
      ((∃ part, t.FirstBad part ∧ e = .badName part) ∨
        (∀ p, t.Holds p → p.Spellable) ∧ ∃ n, t.name? = some n ∧
          n ∈ before.filterMap AbiType.name? ∧ e = .duplicateType n) := by
  constructor
  · rw [Model.exists_build_iff]
    exact clean_iff_no_fault types
  · intro e
    rw [Model.build_eq_error_iff, typesFault?_eq_some_iff]
    simp only [clean_iff_no_fault, AbiType.fault?_eq_some_iff, List.append_nil, and_assoc]
    rfl

/-- Types without a name among types with one, and names that may begin with a digit. -/
def socketTypes : List AbiType :=
  [.pointer .void false, .aliasOf "2d" (.array (.userDefined "3d") 4),
    .intLike ⟨"mode", .uint8, true, some "M_", [⟨"2big", 1⟩]⟩,
    .record "msg"
      [.simple "kind" (.atomic (.int .uint8)),
        .variant [.mk (some "in") [.range "data" (.record "part" []) true "data" "data_len"]]]]

/-- A good record that holds a bad one: inside it the name of an alternative begins with a digit, and a
length name further on is empty. -/
def crookedType : AbiType :=
  .record "outer"
    [.simple "inner" (.pointer (.record "part"
      [.variant [.mk none [.simple "x" .void], .mk (some "2nd") [.range "y" .void true "y" ""]]]) false)]

theorem Model.build_accepts_iff_sockets :
    (∃ m, Model.build "net" socketTypes = .ok m) ∧
    (∀ t ∈ socketTypes, ∀ p, t.Holds p → p.Spellable) ∧
    Model.build "net" (socketTypes ++ [crookedType, .userDefined "msg"]) =
      .error (.badName ⟨.alternative, "2nd"⟩) ∧
    Model.build "net" (socketTypes ++ [.userDefined "msg", crookedType]) =
      .error (.duplicateType "msg") ∧
    ∃ before t after, socketTypes ++ [.userDefined "msg", crookedType] = before ++ t :: after ∧
      (∀ u ∈ before, ∀ p, u.Holds p → p.Spellable) ∧ (before.filterMap AbiType.name?).Nodup ∧
      ((∃ part, t.FirstBad part ∧ ModelError.duplicateType "msg" = .badName part) ∨
        (∀ p, t.Holds p → p.Spellable) ∧ ∃ n, t.name? = some n ∧
          n ∈ before.filterMap AbiType.name? ∧ ModelError.duplicateType "msg" = .duplicateType n) := by
  have hbuilt : ∃ m, Model.build "net" socketTypes = .ok m := ⟨_, rfl⟩
  have htwice : Model.build "net" (socketTypes ++ [.userDefined "msg", crookedType]) =
      .error (.duplicateType "msg") := by rfl
  exact ⟨hbuilt, ((Model.build_accepts_iff "net" socketTypes).1.1 hbuilt).1, by rfl, htwice,
    ((Model.build_accepts_iff "net" _).2 _).1 htwice⟩

end AbiLayout
