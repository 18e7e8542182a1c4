import AbiLayout.Description.Model
import AbiLayout.Proofs.Enumerations.Declaration
import AbiLayout.Proofs.Models.NamesFound
import AbiLayout.Proofs.Names.Canonical
import AbiLayout.Proofs.Offsets.Distinct

/-!
# Constants of an enumeration

A value is bound to a canonical constant, which is written in upper case; the names on the generated side
keep their case. Main statement: in an enumeration of a model that can be declared, two values are bound to
one constant exactly if the case of letters is all that their names differ in.
-/

namespace AbiLayout

open Cpp

/-! ### Names without their case -/

namespace Text

/-- A name without the case of its letters. -/
def foldCase (name : String) : String := String.ofList (name.toList.map Char.toLower)

theorem toLower_toUpper {c : Char} (h : isNameChar c = true) : c.toUpper.toLower = c.toLower :=
  of_ascii (P := fun c => c.toUpper.toLower = c.toLower) (by decide +kernel) (ascii_of_isNameChar h)

theorem toUpper_toLower {c : Char} (h : isNameChar c = true) : c.toLower.toUpper = c.toUpper :=
  of_ascii (P := fun c => c.toLower.toUpper = c.toUpper) (by decide +kernel) (ascii_of_isNameChar h)

theorem map_toLower_toUpper {l : List Char} (h : ∀ c ∈ l, isNameChar c = true) :
    (l.map Char.toUpper).map Char.toLower = l.map Char.toLower := by
  rw [List.map_map]
  exact List.map_congr_left fun c hc => toLower_toUpper (h c hc)

theorem map_toUpper_toLower {l : List Char} (h : ∀ c ∈ l, isNameChar c = true) :
    (l.map Char.toLower).map Char.toUpper = l.map Char.toUpper := by
  rw [List.map_map]
  exact List.map_congr_left fun c hc => toUpper_toLower (h c hc)

/-- Either case of a name gives the other, so both forget the same. -/
theorem uppercase_eq_uppercase_iff {x y : String} (hx : ∀ c ∈ x.toList, isNameChar c = true)
    (hy : ∀ c ∈ y.toList, isNameChar c = true) :
    uppercase x = uppercase y ↔ foldCase x = foldCase y := by
  have hupper : uppercase x = uppercase y ↔ x.toList.map Char.toUpper = y.toList.map Char.toUpper := by
    rw [← String.toList_inj, toList_uppercase hx, toList_uppercase hy]
  have hfold : foldCase x = foldCase y ↔ x.toList.map Char.toLower = y.toList.map Char.toLower := by
    rw [foldCase, foldCase, String.ofList_inj]
  rw [hupper, hfold]
  constructor
  · intro h
    rw [← map_toLower_toUpper hx, ← map_toLower_toUpper hy, h]
  · intro h
    rw [← map_toUpper_toLower hx, ← map_toUpper_toLower hy, h]

end Text

/-! ### The enumerations of a model -/

/-- The enumeration is found in a type: it is the type, or one that the type is built from, at any depth. -/
inductive AbiType.Contains (e : IntLike) : AbiType → Prop where
  | self : AbiType.Contains e (.intLike e)
  | atomic {target : AbiType} (h : AbiType.Contains e target) : AbiType.Contains e (.atomic target)
  | pointer {target : AbiType} {constant : Bool} (h : AbiType.Contains e target) :
    AbiType.Contains e (.pointer target constant)
  | array {element : AbiType} {count : UInt64} (h : AbiType.Contains e element) :
    AbiType.Contains e (.array element count)
  | underlying {name : String} {underlying : AbiType} (h : AbiType.Contains e underlying) :
    AbiType.Contains e (.aliasOf name underlying)
  | simple {name member : String} {ms : List Member} {type : AbiType} (hm : Cpp.Holds ms (.simple member type))
    (h : AbiType.Contains e type) : AbiType.Contains e (.record name ms)
  | range {name member baseName lengthName : String} {ms : List Member} {target : AbiType} {constant : Bool}
    (hm : Cpp.Holds ms (.range member target constant baseName lengthName))
    (h : AbiType.Contains e target) : AbiType.Contains e (.record name ms)

theorem holds_of_member {ms : List Member} {m : Member} {p : NamedPart} (h : Cpp.Holds ms m) (hp : m.Holds p) :
    ∃ outer ∈ ms, outer.Holds p := by
  induction h with
  | here h => exact ⟨_, h, hp⟩
  | inside hv ha _ ih =>
    obtain ⟨inner, hinner, hheld⟩ := ih hp
    exact ⟨_, hv, .alternative ha (.member hinner hheld)⟩

/-- The names of an enumeration are names of the types that contain it. -/
theorem AbiType.holds_of_contains {t : AbiType} {e : IntLike} {p : NamedPart} (h : t.Contains e)
    (hp : (AbiType.intLike e).Holds p) : t.Holds p := by
  induction h with
  | self => exact hp
  | atomic _ ih => exact .atomic ih
  | pointer _ ih => exact .pointer ih
  | array _ ih => exact .array ih
  | underlying _ ih => exact .underlying ih
  | simple hm _ ih =>
    obtain ⟨outer, houter, hheld⟩ := holds_of_member hm (.simpleType ih)
    exact .member houter hheld
  | range hm _ ih =>
    obtain ⟨outer, houter, hheld⟩ := holds_of_member hm (.rangeTarget ih)
    exact .member houter hheld

theorem Model.wellNamed_of_contains {m : Model} {t : AbiType} {e : IntLike} (ht : t ∈ m.types)
    (he : t.Contains e) : (AbiType.intLike e).WellNamed := by
  intro p hp
  rw [AbiType.mem_names_iff] at hp
  have hin : p ∈ t.names := (t.mem_names_iff p).2 (AbiType.holds_of_contains he hp)
  exact m.wellNamed t ht p hin

namespace Cpp

open Text (foldCase)

/-! ### What a value is bound to -/

/-- The constant that a name is bound to in an enumeration. -/
def Enumeration.constantOf? (x : Enumeration) (name : String) : Option String :=
  (x.enumerators.find? fun y => y.name == name).map Enumerator.constant

theorem Enumeration.constantOf?_name {x : Enumeration}
    (hdistinct : (x.enumerators.map Enumerator.name).Nodup) {y : Enumerator} (hy : y ∈ x.enumerators) :
    x.constantOf? y.name = some y.constant := by
  rw [constantOf?]
  cases hfind : x.enumerators.find? fun z => z.name == y.name with
  | none =>
    have hnot := List.find?_eq_none.1 hfind y hy
    exact absurd (beq_self_eq_true y.name) hnot
  | some z =>
    have hz := List.mem_of_find?_eq_some hfind
    have hname : z.name = y.name := by simpa using List.find?_some hfind
    have hsame : z = y := List.inj_on_of_nodup_map hdistinct hz hy hname
    rw [hsame, Option.map_some]

theorem constantOf?_of_declaredBy {lead : String} {e : IntLike} {x : Enumeration} {lines : List String}
    (hx : e.DeclaredBy lead x lines) {v : NamedValue} (hv : v ∈ e.values) :
    x.constantOf? (mangle v.name) = some (canonicalValue lead e v) := by
  refine Enumeration.constantOf?_name (y := ⟨mangle v.name, canonicalValue lead e v⟩) hx.distinct ?_
  rw [hx.enumerators, List.mem_append, List.mem_map]
  exact .inr ⟨v, hv, rfl⟩

/-- All constants of an enumeration begin alike, so the values decide whether two are the same. -/
theorem canonicalValue_eq_iff (lead : String) {e : IntLike} (hwell : (AbiType.intLike e).WellNamed)
    {v w : NamedValue} (hv : v ∈ e.values) (hw : w ∈ e.values) :
    canonicalValue lead e v = canonicalValue lead e w ↔ foldCase v.name = foldCase w.name := by
  obtain ⟨-, -, hvalues⟩ := isFragment_of_intLike hwell
  have hfirst := Text.isNameChar_of_isFragment (hvalues v hv)
  have hsecond := Text.isNameChar_of_isFragment (hvalues w hw)
  rw [canonicalValue, canonicalValue, String.append_right_inj, Text.uppercase_eq_uppercase_iff hfirst hsecond]

theorem nodup_canonicalValue_iff (lead : String) {e : IntLike} (hwell : (AbiType.intLike e).WellNamed) :
    (e.values.map (canonicalValue lead e)).Nodup ↔ (e.values.map fun v => foldCase v.name).Nodup := by
  simp only [List.Nodup, List.pairwise_map]
  refine List.Pairwise.iff_of_mem ?_
  intro v w hv hw
  exact not_congr (canonicalValue_eq_iff lead hwell hv hw)

/-- In an enumeration anywhere in a model every value is bound to a constant. Two values are bound to one
constant exactly if the case of letters is all that their names differ in. -/
theorem declareType_constants_up_to_case (m : Model) (t : AbiType) (ht : t ∈ m.types) (e : IntLike)
    (he : t.Contains e) (lead : String) (hok : (declareType lead (.intLike e)).result = .ok ()) :
    ∃ x, e.DeclaredBy lead x (declareType lead (.intLike e)).lines ∧
      (∀ v ∈ e.values, x.constantOf? (mangle v.name) = some (canonicalValue lead e v)) ∧
      (∀ v ∈ e.values, ∀ w ∈ e.values,
        x.constantOf? (mangle v.name) = x.constantOf? (mangle w.name) ↔
          foldCase v.name = foldCase w.name) ∧
      ((e.values.map (canonicalValue lead e)).Nodup ↔ (e.values.map fun v => foldCase v.name).Nodup) := by
  have hwell := Model.wellNamed_of_contains ht he
  have hconsistent := (declareType_intLike_eq_ok_iff lead e).1 hok
  have hx := declaredBy_of_consistent lead hconsistent
  have hbound : ∀ v ∈ e.values,
      (e.declared lead).constantOf? (mangle v.name) = some (canonicalValue lead e v) :=
    fun v hv => constantOf?_of_declaredBy hx hv
  refine ⟨e.declared lead, hx, hbound, ?_, nodup_canonicalValue_iff lead hwell⟩
  intro v hv w hw
  rw [hbound v hv, hbound w hw, Option.some_inj, canonicalValue_eq_iff lead hwell hv hw]

/-- Names that differ in more than the case of their letters, in an enumeration behind a pointer. -/
def ranks : IntLike := ⟨"rank", .uint8, false, none, [⟨"ace", 1⟩, ⟨"Ace2", 2⟩, ⟨"KING", 3⟩]⟩

/-- A record whose alternative points to these names. -/
def deck : AbiType :=
  .record "deck" [.variant [.mk (some "top") [.simple "r" (.pointer (.intLike ranks) false)]]]

theorem declareType_constants_up_to_case_ranks :
    (∃ m, Model.build "cards" [deck] = .ok m) ∧
    (declareType "cloudabi_" (.intLike ranks)).result = .ok () ∧
    ∃ x, ranks.DeclaredBy "cloudabi_" x (declareType "cloudabi_" (.intLike ranks)).lines ∧
      (∀ v ∈ ranks.values, x.constantOf? (mangle v.name) = some (canonicalValue "cloudabi_" ranks v)) ∧
      (∀ v ∈ ranks.values, ∀ w ∈ ranks.values,
        x.constantOf? (mangle v.name) = x.constantOf? (mangle w.name) ↔
          foldCase v.name = foldCase w.name) ∧
      ((ranks.values.map (canonicalValue "cloudabi_" ranks)).Nodup ↔
        (ranks.values.map fun v => foldCase v.name).Nodup) := by
  obtain ⟨m, hm⟩ : ∃ m, Model.build "cards" [deck] = .ok m :=
    (Model.exists_build_iff _ _).2 (by decide +kernel)
  have htypes := ((Model.build_eq_ok_iff _ _ _).1 hm).2
  have hdeck : deck ∈ m.types := htypes ▸ List.mem_singleton_self deck
  have hranks : deck.Contains ranks :=
    .simple (.inside (List.mem_singleton_self _) (List.mem_singleton_self _)
      (.here (List.mem_singleton_self _))) (.pointer .self)
  have hok : (declareType "cloudabi_" (.intLike ranks)).result = .ok () := by rfl
  exact ⟨⟨m, hm⟩, hok, declareType_constants_up_to_case m deck hdeck ranks hranks "cloudabi_" hok⟩

/-- Two names that differ in case alone. -/
def letters : IntLike := ⟨"f", .uint8, false, none, [⟨"a", 1⟩, ⟨"A", 2⟩]⟩

/-- Values of two names and two numbers are bound to one constant. -/
theorem constants_do_not_keep_case :
    (∃ m, Model.build "case" [.intLike letters] = .ok m) ∧
    declareType "cloudabi_" (.intLike letters) =
      ⟨["enum class f : cloudabi_f_t \x7b", "  a = CLOUDABI_F_A,", "  A = CLOUDABI_F_A,", "\x7d;", ""],
        .ok ()⟩ ∧
    ∃ v ∈ letters.values, ∃ w ∈ letters.values, v.name ≠ w.name ∧ v.value ≠ w.value ∧
      canonicalValue "cloudabi_" letters v = canonicalValue "cloudabi_" letters w := by
  have hmodel : ∃ m, Model.build "case" [.intLike letters] = .ok m :=
    (Model.exists_build_iff _ _).2 (by decide +kernel)
  refine ⟨hmodel, by rfl, ⟨"a", 1⟩, by decide +kernel, ⟨"A", 2⟩, by decide +kernel, ?_⟩
  exact ⟨by decide, by decide, by decide +kernel⟩

end Cpp

end AbiLayout
