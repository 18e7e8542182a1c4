import AbiLayout.Description.Load
import AbiLayout.Proofs.Descriptions.Accepting
import AbiLayout.Proofs.Descriptions.Yielding
import AbiLayout.Proofs.Documents.JsonText

/-!
# Descriptions as JSON and back

The full written form of a description is one of its spellings. Main statements: it reads back as the
description, and so does everything else that spells it, with the keys of structs in any order, with
fields that hold their default left out, and with keys that mean nothing added, in any depth; and the
texts that are loaded as the description are exactly those that spell it.
-/

namespace AbiLayout

open Document Json

/-! ### The full written form -/

theorem optional_eq_optionNode (o : Option String) : Tree.optional o = script.optionNode o := by
  cases o <;> rfl

theorem NamedValue.spelled_dump (v : NamedValue) : v.Spelled script v.dump :=
  Filling.spells_of_forall₂ (.cons ⟨rfl, rfl⟩ (.cons ⟨rfl, rfl⟩ .nil))

theorem IntLike.spelled_dump (e : IntLike) : e.Spelled script e.dump := by
  have hinfix := optional_eq_optionNode e.infixName
  have hvalues : Node.Lists (List.Forall₂ (NamedValue.Spelled script) e.values)
      (Tree.array (e.values.map NamedValue.dump)) := by
    refine ⟨_, rfl, ?_⟩
    rw [List.forall₂_map_right_iff, List.forall₂_same]
    exact fun v _ => v.spelled_dump
  exact Filling.spells_of_forall₂ (.cons ⟨rfl, rfl⟩ (.cons ⟨rfl, rfl⟩ (.cons ⟨rfl, rfl⟩
    (.cons ⟨rfl, hinfix⟩ (.cons ⟨rfl, hvalues⟩ .nil)))))

mutual

theorem AbiType.spelled_dump (t : AbiType) : t.Spelled script t.dump := by
  cases t with
  | void => rfl
  | int kind => rfl
  | atomic target => exact ⟨_, rfl, target.spelled_dump⟩
  | pointer target constant =>
    have htarget := target.spelled_dump
    exact ⟨_, rfl, Filling.spells_of_forall₂ (.cons ⟨rfl, htarget⟩ (.cons ⟨rfl, rfl⟩ .nil))⟩
  | array element count =>
    have helement := element.spelled_dump
    exact ⟨_, rfl, Filling.spells_of_forall₂ (.cons ⟨rfl, helement⟩ (.cons ⟨rfl, rfl⟩ .nil))⟩
  | aliasOf name underlying =>
    have hunderlying := underlying.spelled_dump
    exact ⟨_, rfl, Filling.spells_of_forall₂ (.cons ⟨rfl, rfl⟩ (.cons ⟨rfl, hunderlying⟩ .nil))⟩
  | intLike body => exact ⟨_, rfl, body.spelled_dump⟩
  | userDefined name => rfl
  | record name members =>
    have hmembers := membersSpelled_dump members
    exact ⟨_, rfl, Filling.spells_of_forall₂
      (.cons ⟨rfl, rfl⟩ (.cons ⟨rfl, _, rfl, hmembers⟩ .nil))⟩

theorem Member.spelled_dump (m : Member) : m.Spelled script m.dump := by
  cases m with
  | simple name type =>
    have htype := type.spelled_dump
    exact ⟨_, rfl, Filling.spells_of_forall₂ (.cons ⟨rfl, rfl⟩ (.cons ⟨rfl, htype⟩ .nil))⟩
  | variant alternatives =>
    have halternatives := alternativesSpelled_dump alternatives
    exact ⟨_, rfl, Filling.spells_of_forall₂ (.cons ⟨rfl, _, rfl, halternatives⟩ .nil)⟩
  | range name target constant baseName lengthName =>
    have htarget := target.spelled_dump
    have hbase : NameOrDefault script name baseName (Tree.text baseName) :=
      ⟨some baseName, rfl, rfl⟩
    have hlength : NameOrDefault script (Member.defaultLengthName name) lengthName
        (Tree.text lengthName) := ⟨some lengthName, rfl, rfl⟩
    exact ⟨_, rfl, Filling.spells_of_forall₂ (.cons ⟨rfl, rfl⟩ (.cons ⟨rfl, htarget⟩
      (.cons ⟨rfl, rfl⟩ (.cons ⟨rfl, hbase⟩ (.cons ⟨rfl, hlength⟩ .nil)))))⟩

theorem Alternative.spelled_dump (a : Alternative) : a.Spelled script a.dump := by
  cases a with
  | mk name members =>
    have hname := optional_eq_optionNode name
    have hmembers := membersSpelled_dump members
    exact Filling.spells_of_forall₂
      (.cons ⟨rfl, hname⟩ (.cons ⟨rfl, _, rfl, hmembers⟩ .nil))

theorem membersSpelled_dump (members : List Member) :
    MembersSpelled script members (membersDump members) := by
  cases members with
  | nil => rfl
  | cons m rest => exact ⟨_, _, rfl, m.spelled_dump, membersSpelled_dump rest⟩

theorem alternativesSpelled_dump (alternatives : List Alternative) :
    AlternativesSpelled script alternatives (alternativesDump alternatives) := by
  cases alternatives with
  | nil => rfl
  | cons a rest => exact ⟨_, _, rfl, a.spelled_dump, alternativesSpelled_dump rest⟩

end

theorem Interface.spelled_dump (i : Interface) : i.Spelled script i.dump := by
  have hdescription := optional_eq_optionNode i.description
  exact Filling.spells_of_forall₂ (.cons ⟨rfl, rfl⟩ (.cons ⟨rfl, hdescription⟩ .nil))

theorem Description.spelled_dump (f : Description) : f.Spelled script f.dump := by
  have hinterface := f.interface.spelled_dump
  have htypes : Node.Lists (List.Forall₂ (AbiType.Spelled script) f.types)
      (Tree.array (f.types.map AbiType.dump)) := by
    refine ⟨_, rfl, ?_⟩
    rw [List.forall₂_map_right_iff, List.forall₂_same]
    exact fun t _ => t.spelled_dump
  exact Filling.spells_of_forall₂ (.cons ⟨rfl, hinterface⟩ (.cons ⟨rfl, htypes⟩ .nil))

/-! ### Reading back -/

/-- A description comes back from its full written form, which spells it, and from every document that
spells it: in any depth, the keys of a struct may have another order, a field that holds its default may
be left out, and keys that name no field may stand beside the others. -/
theorem readDescription_roundTrip (f : Description) (depth : Nat) (hdepth : f.dump.depth ≤ depth) :
    readDescription format depth f.dump = pure f ∧ f.Spelled script f.dump ∧
    ∀ doc : Parsed Scalar, doc.isWhole = true → f.Spelled script doc.root →
      doc.read (readDescription format depth) = .ok f := by
  have hread : ∀ t : Tree, f.Spelled script t → readDescription format depth t = pure f :=
    fun t ht => readDescription_of_spelled script_readBy_format ht hdepth
  refine ⟨hread f.dump f.spelled_dump, f.spelled_dump, ?_⟩
  intro doc hwhole hspelled
  exact read_of_eq_pure hwhole (hread doc.root hspelled)

/-- A record with a range whose parts are named by default. -/
def buffers : Description where
  interface := ⟨"buffers", none⟩
  types := [.record "iovec" [.range "buf" .void false "buf" "buf_len"]]

/-- The range with its keys in another order, a note beside them, and nothing that is understood. -/
def terseRange : Tree :=
  .object [("target", .text "void"), ("note", .array [.null]), ("name", .text "buf")]

def terseBuffers : Tree :=
  .object
    [("types", .array [tagged "struct" (.object
        [("members", .array [tagged "range" terseRange]), ("name", .text "iovec")])]),
      ("abi", .array [.text "buffers"])]

theorem spells_terseRange :
    (rangeFilling script "buf" (AbiType.Spelled script .void) false "buf" "buf_len").Spells script
      terseRange := by
  have htarget : RangeField.target ∈ rangeShape.fields := by decide
  have hname : RangeField.name ∈ rangeShape.fields.erase .target := by decide
  refine .object (.field htarget rfl (.foreign (by decide) rfl (.field hname rfl (.done ?_))))
  intro f hf
  cases f with
  | name | target => exact absurd hf (by decide)
  | constant | baseName | lengthName => rfl

theorem spelled_terseBuffers : buffers.Spelled script terseBuffers := by
  have hmembers : RecordField.members ∈ recordShape.fields := by decide
  have hname : RecordField.name ∈ recordShape.fields.erase .members := by decide
  have htypes : DescriptionField.types ∈ descriptionShape.fields := by decide
  have hinterface : DescriptionField.interface ∈ descriptionShape.fields.erase .types := by decide
  refine .object (.field htypes ?_ (.field hinterface ?_ (.done fun f hf => ?_)))
  · refine ⟨_, rfl, .cons ⟨_, rfl, .object ?_⟩ .nil⟩
    refine .field hmembers ?_ (.field hname rfl (.done fun f hf => ?_))
    · exact ⟨_, rfl, _, _, rfl, ⟨_, rfl, spells_terseRange⟩, rfl⟩
    · exact absurd hf (by cases f <;> decide)
  · refine .sequence rfl (.item rfl (.done fun f hf => ?_))
    rw [List.mem_singleton] at hf
    rw [hf]
    rfl
  · exact absurd hf (by cases f <;> decide)

theorem readDescription_roundTrip_buffers :
    buffers.dump.depth ≤ 127 ∧
    readDescription format 127 buffers.dump = pure buffers ∧
    Parsed.read ⟨terseBuffers, true, #[], 0⟩ (readDescription format 127) = .ok buffers := by
  have hdepth : buffers.dump.depth ≤ 127 := by decide
  obtain ⟨hfull, _, hspelled⟩ := readDescription_roundTrip buffers 127 hdepth
  exact ⟨hdepth, hfull, hspelled ⟨terseBuffers, true, #[], 0⟩ rfl spelled_terseBuffers⟩

/-- A text is loaded as a description exactly if it is well formed and spells the description, as far
as nesting is allowed. -/
theorem Description.ofText_json_eq_ok_iff {text : String} {f : Description}
    (hdepth : f.dump.depth ≤ format.limit) :
    Description.ofText .json text = .ok f ↔
      (readDocument text).isWhole = true ∧ f.Spelled script (readDocument text).root := by
  have hok : Description.ofText .json text = .ok f ↔
      (readDocument text).read (readDescription format format.limit) = .ok f := by
    show (Except.mapError _ (Description.ofDocument format (readDocument text))) = .ok f ↔ _
    unfold Description.ofDocument
    cases (readDocument text).read (readDescription format format.limit) <;> simp [Except.mapError]
  rw [hok]
  constructor
  · intro h
    obtain ⟨hyields, hwhole⟩ := yields_of_read h
    exact ⟨hwhole,
      spelled_of_readDescription script_covers_format (isDirect_readDocument text) hyields⟩
  · rintro ⟨hwhole, hspelled⟩
    exact read_of_eq_pure hwhole
      (readDescription_of_spelled script_readBy_format hspelled hdepth)

end AbiLayout
