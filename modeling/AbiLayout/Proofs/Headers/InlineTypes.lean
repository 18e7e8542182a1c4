import AbiLayout.Proofs.Exclusion
import AbiLayout.Proofs.Records.InlineTypes
import Mathlib.Data.List.Forall2
import Mathlib.Logic.Relation

/-!
# Types behind names

Headers name the types that records use, and an alias is declared without the type behind it. Main statement:
a model in which inline types are left to their names, and aliases have other types behind them, is a model
still, and its headers, or the fault in rendering them, are the same.
-/

namespace AbiLayout

open Cpp

/-- In the second list one inline type of the first is left to its name, inside the members of a record, or
one alias has another type of good names behind it. -/
inductive TypesAbridge : List AbiType → List AbiType → Prop where
  | inRecord {around : List Member → AbiType} (haround : AroundMembers around) {ms ms' : List Member}
    (h : MembersAbridge ms ms') (rest : List AbiType) :
    TypesAbridge (around ms :: rest) (around ms' :: rest)
  | underlying (name : String) (t : AbiType) {t' : AbiType} (hw : t'.WellNamed) (rest : List AbiType) :
    TypesAbridge (.aliasOf name t :: rest) (.aliasOf name t' :: rest)
  | later (t : AbiType) {ts ts' : List AbiType} (h : TypesAbridge ts ts') : TypesAbridge (t :: ts) (t :: ts')

/-- Headers do not tell the second type from the first, and its names are good if those of the first are. -/
structure AbiType.RendersAs (t t' : AbiType) : Prop where
  name : t.name? = t'.name?
  wellNamed : t.WellNamed → t'.WellNamed
  declared : ∀ lead, declareType lead t = declareType lead t'
  defined : ∀ s lead, t.record?.map (defineRecord s lead) = t'.record?.map (defineRecord s lead)

namespace AbiType.RendersAs

theorem refl (t : AbiType) : t.RendersAs t := ⟨rfl, id, fun _ => rfl, fun _ _ => rfl⟩

theorem underlying (name : String) (t : AbiType) {t' : AbiType} (hw : t'.WellNamed) :
    (AbiType.aliasOf name t).RendersAs (.aliasOf name t') where
  name := rfl
  wellNamed := by
    intro hold p hp
    rw [names, List.mem_cons] at hp
    rcases hp with rfl | hp
    · refine hold _ ?_
      rw [names]
      exact List.mem_cons_self ..
    · exact hw p hp
  declared _ := rfl
  defined _ _ := rfl

theorem inRecord {around : List Member → AbiType} (haround : AroundMembers around) {ms ms' : List Member}
    (h : MembersAbridge ms ms') : (around ms).RendersAs (around ms') := by
  have hwell : (around ms).WellNamed → (around ms').WellNamed := by
    intro hold p hp
    exact hold p (haround.names_subset h.names_subset hp)
  cases haround with
  | record name =>
    refine ⟨rfl, hwell, fun _ => rfl, fun s lead => ?_⟩
    rw [record?, record?, Option.map_some, Option.map_some, defineRecord_of_abridges s lead name h]
  | atomic _ => exact ⟨rfl, hwell, fun _ => rfl, fun _ _ => rfl⟩
  | pointer _ constant => exact ⟨rfl, hwell, fun _ => rfl, fun _ _ => rfl⟩
  | array _ count => exact ⟨rfl, hwell, fun _ => rfl, fun _ _ => rfl⟩
  | aliasOf _ name => exact ⟨rfl, hwell, fun _ => rfl, fun _ _ => rfl⟩

end AbiType.RendersAs

theorem TypesAbridge.rendersAs {ts ts' : List AbiType} (h : TypesAbridge ts ts') :
    List.Forall₂ AbiType.RendersAs ts ts' := by
  have hsame : ∀ rest, List.Forall₂ AbiType.RendersAs rest rest :=
    fun rest => List.forall₂_same.2 fun t _ => .refl t
  induction h with
  | inRecord haround h rest => exact .cons (.inRecord haround h) (hsame rest)
  | underlying name t hw rest => exact .cons (.underlying name t hw) (hsame rest)
  | later t _ ih => exact .cons (.refl t) ih

/-! ### Lists of types that render alike -/

section

variable {ts ts' : List AbiType} (h : List.Forall₂ AbiType.RendersAs ts ts')

include h

theorem names_of_rendersAs : ts.filterMap AbiType.name? = ts'.filterMap AbiType.name? := by
  induction h with
  | nil => rfl
  | cons ht _ ih => rw [List.filterMap_cons, List.filterMap_cons, ht.name, ih]

theorem wellNamed_of_rendersAs (hw : ∀ t ∈ ts, t.WellNamed) : ∀ t ∈ ts', t.WellNamed := by
  induction h with
  | nil => exact hw
  | cons ht _ ih =>
    rw [List.forall_mem_cons] at hw ⊢
    exact ⟨ht.wellNamed hw.1, ih hw.2⟩

theorem no_fault_of_rendersAs (hts : typesFault? [] ts = none) : typesFault? [] ts' = none := by
  rw [typesFault?_eq_none_iff] at hts ⊢
  rw [← names_of_rendersAs h]
  exact ⟨wellNamed_of_rendersAs h hts.1, hts.2⟩

/-- Types are excluded by their names, so what is kept renders alike as well. -/
theorem rendersAs_filter (excluded : String → Bool) :
    List.Forall₂ AbiType.RendersAs (ts.filter fun t => !(t.name?.any excluded))
      (ts'.filter fun t => !(t.name?.any excluded)) := by
  induction h with
  | nil => exact .nil
  | cons ht _ ih =>
    rw [List.filter_cons, List.filter_cons, ht.name]
    split
    · exact .cons ht ih
    · exact ih

theorem declareTypes_of_rendersAs (lead : String) : declareTypes lead ts = declareTypes lead ts' := by
  induction h with
  | nil => rfl
  | cons ht _ ih => rw [declareTypes, declareTypes, ht.declared, ih]

theorem defineRecords_of_rendersAs (s : RecordSettings) (lead : String) :
    defineRecords s lead (ts.filterMap AbiType.record?) =
      defineRecords s lead (ts'.filterMap AbiType.record?) := by
  induction h with
  | nil => rfl
  | @cons t t' _ _ ht _ ih =>
    have hdefined := ht.defined s lead
    rw [List.filterMap_cons, List.filterMap_cons]
    cases hr : t.record? with
    | none =>
      rw [hr, Option.map_none, eq_comm, Option.map_eq_none_iff] at hdefined
      rw [hdefined]
      exact ih
    | some r =>
      rw [hr, Option.map_some, eq_comm, Option.map_eq_some_iff] at hdefined
      obtain ⟨r', hr', hdefined⟩ := hdefined
      rw [hr']
      simp only [defineRecords, hdefined, ih]

end

/-- One inline type left to its name, or one type put behind an alias, changes nothing that is rendered. -/
theorem renderHeaders_of_abridges (m : Model) {types' : List AbiType} (h : TypesAbridge m.types types') :
    ∃ m', Model.build m.name types' = .ok m' ∧ ∀ s, renderHeaders s m' = renderHeaders s m := by
  have halike := h.rendersAs
  have hfault : typesFault? [] types' = none := no_fault_of_rendersAs halike m.typesFault?_eq_none
  refine ⟨.ofTypes m.name types' hfault, (Model.ofTypes m.name types' hfault).build_self, fun s => ?_⟩
  have hincluded : List.Forall₂ AbiType.RendersAs (includedTypes s m)
      (includedTypes s (.ofTypes m.name types' hfault)) := rendersAs_filter halike s.excludes
  have htypes : typesHeader s (.ofTypes m.name types' hfault) = typesHeader s m := by
    rw [typesHeader, typesHeader, declareTypes_of_rendersAs hincluded]
    rfl
  have hrecords : recordsHeader s (.ofTypes m.name types' hfault) = recordsHeader s m := by
    rw [recordsHeader, recordsHeader, includedRecords, includedRecords,
      defineRecords_of_rendersAs hincluded]
    rfl
  simp only [renderHeaders, renderTypes, renderRecords, htypes, hrecords]

/-- If inline aliases, enumerations and records inside the members of records are left to their names, and
other types of good names are put behind aliases, the types still make a model, and under all settings both
headers and their count, or the fault in rendering them, are what they were. -/
theorem renderHeaders_looks_at_names (m : Model) (types' : List AbiType)
    (h : Relation.ReflTransGen TypesAbridge m.types types') :
    ∃ m', Model.build m.name types' = .ok m' ∧ ∀ s, renderHeaders s m' = renderHeaders s m := by
  induction h with
  | refl => exact ⟨m, m.build_self, fun _ => rfl⟩
  | tail _ hstep ih =>
    obtain ⟨before, hbefore, hsame⟩ := ih
    obtain ⟨hname, rfl⟩ := (Model.build_eq_ok_iff _ _ _).1 hbefore
    obtain ⟨m', hm', hrendered⟩ := renderHeaders_of_abridges before hstep
    rw [hname] at hm'
    exact ⟨m', hm', fun s => (hrendered s).trans (hsame s)⟩

/-- Types of a mailbox, by what stands behind the alias `fd`, and by what a message refers to. -/
def mailTypes (fd peer part flags : AbiType) : List AbiType :=
  [.aliasOf "fd" fd,
    .record "message"
      [.simple "to" (.pointer peer true),
        .variant [.mk (some "out") [.range "parts" (.array part 2) false "parts" "parts_len"]],
        .simple "flags" (.atomic flags)]]

/-- None of the types that the message describes inline could be declared. -/
def mailModel : Model :=
  .ofTypes "mail"
    (mailTypes (.int .uint32) (.aliasOf "peer" (.array .void 0)) (.record "part" [.simple "gone" .void])
      (.intLike ⟨"flags", .uint8, true, none, [⟨"a", 1⟩, ⟨"a", 2⟩]⟩)) rfl

def mailByName : List AbiType :=
  mailTypes (.record "file" [.simple "raw" .void]) (.userDefined "peer") (.userDefined "part")
    (.userDefined "flags")

theorem mail_abridges : Relation.ReflTransGen TypesAbridge mailModel.types mailByName := by
  have hfile : (AbiType.record "file" [.simple "raw" .void]).WellNamed :=
    (AbiType.badName?_eq_none_iff _).1 (by decide +kernel)
  refine .head (.underlying "fd" _ hfile _) ?_
  refine .head (.later _ (.inRecord (.record "message") (.simple "to" (.pointer (.aliasOf "peer" _) true) _) _)) ?_
  refine .head (.later _ (.inRecord (.record "message") (.later _ (.inAlternative [] [] (some "out")
    (.range "parts" (.array (.record "part" _) 2) false "parts" "parts_len" []) _)) _)) ?_
  exact .single (.later _ (.inRecord (.record "message") (.later _ (.later _
    (.simple "flags" (.atomic (.intLike _)) []))) []))

theorem renderHeaders_looks_at_names_mail :
    Relation.ReflTransGen TypesAbridge mailModel.types mailByName ∧
    (renderHeaders .standard mailModel).toOption.map Headers.offsetCount = some 3 ∧
    ∃ m', Model.build "mail" mailByName = .ok m' ∧
      ∀ s, renderHeaders s m' = renderHeaders s mailModel :=
  ⟨mail_abridges, by decide +kernel, renderHeaders_looks_at_names mailModel mailByName mail_abridges⟩

end AbiLayout
