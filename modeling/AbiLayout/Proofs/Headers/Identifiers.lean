import AbiLayout.Proofs.Enumerations.Acceptance
import AbiLayout.Proofs.Headers.Assembly
import AbiLayout.Proofs.Headers.TypeNames
import AbiLayout.Proofs.Names.Canonical
import AbiLayout.Proofs.Offsets.Distinct
import AbiLayout.Proofs.Records.Qualification

/-!
# Identifiers in headers

What the headers declare and refer to is made of names of the description: mangled on the generated
side, pasted together or left alone on the canonical one. Main statement: with a lead that is an
identifier, every name that stands in a header for one of the description is an identifier of its side,
and so is everything between the dots of a path.
-/

namespace AbiLayout.Cpp

open Text (isIdentifier dotless_of_isIdentifier)

/-! ### Light declarations -/

/-- An enumerator is bound to a canonical constant, unless it is the one that a flags type adds for no
bits set. -/
def Enumerator.WellSpelled (flags : Bool) (x : Enumerator) : Prop :=
  Declarable x.name ∧ (isIdentifier x.constant = true ∨ flags = true ∧ x = ⟨noneName, "0"⟩)

def LightDeclaration.WellSpelled : LightDeclaration → Prop
  | aliasOf name cname => Declarable name ∧ isIdentifier cname = true
  | enumeration _ e => Declarable e.name ∧ isIdentifier e.underlying = true ∧
      ∀ x ∈ e.enumerators, x.WellSpelled e.flags
  | announcement name => Declarable name

theorem wellSpelled_of_enumeration {lead : String} {body : IntLike} {e : Enumeration}
    (hlead : isIdentifier lead = true) (hw : (AbiType.intLike body).WellNamed)
    (h : enumeration lead body = .ok e) : ∀ x ∈ e.enumerators, x.WellSpelled e.flags := by
  unfold enumeration at h
  split at h
  · cases h
  · obtain ⟨b, hb, h⟩ := (bind_eq_ok_iff _ _ _).1 h
    cases h
    intro x hx
    rcases List.mem_append.1 hx with hx | hx
    · cases b with
      | false => exact absurd hx List.not_mem_nil
      | true =>
        have hnone := List.mem_singleton.1 hx
        have hneeds := needsNone_eq_ok hb
        rw [eq_comm, Bool.and_eq_true] at hneeds
        refine ⟨?_, .inr ⟨hneeds.1, hnone⟩⟩
        rw [hnone]
        exact mangle_declarable "none"
    · obtain ⟨v, hv, rfl⟩ := List.mem_map.1 hx
      exact ⟨mangle_declarable v.name, .inl (isIdentifier_canonicalValue hlead hw hv)⟩

theorem wellSpelled_of_lightDeclaration {lead : String} {t : AbiType} {d : LightDeclaration}
    (hlead : isIdentifier lead = true) (hw : t.WellNamed)
    (h : lightDeclaration lead t = .ok (some d)) : d.WellSpelled := by
  have hnamed : ∀ name, t.name? = some name → isIdentifier ((canonical lead).named name) = true :=
    fun name hname => isIdentifier_named hlead (hw.isFragment hname)
  cases t with
  | aliasOf name underlying =>
    cases h
    exact ⟨mangle_declarable name, hnamed name rfl⟩
  | intLike body =>
    obtain ⟨e, he, hd⟩ := (bind_eq_ok_iff _ _ _).1 h
    cases hd
    have hname := name_of_enumeration he
    have hunderlying : e.underlying = (canonical lead).named body.name := by
      unfold enumeration at he
      split at he
      · cases he
      · obtain ⟨_, _, he⟩ := (bind_eq_ok_iff _ _ _).1 he
        cases he
        rfl
    refine ⟨?_, ?_, wellSpelled_of_enumeration hlead hw he⟩
    · rw [hname]
      exact mangle_declarable body.name
    · rw [hunderlying]
      exact hnamed body.name rfl
  | record name members =>
    cases h
    exact mangle_declarable name
  | _ => cases h

theorem mem_lightDeclarations {lead : String} {types : List AbiType} {ds : List LightDeclaration}
    (h : lightDeclarations lead types = .ok ds) {d : LightDeclaration} (hd : d ∈ ds) :
    ∃ t ∈ types, lightDeclaration lead t = .ok (some d) := by
  induction types generalizing ds with
  | nil =>
    cases h
    exact absurd hd List.not_mem_nil
  | cons t rest ih =>
    obtain ⟨first, hfirst, h⟩ := (bind_eq_ok_iff _ _ _).1 h
    obtain ⟨others, hothers, h⟩ := (bind_eq_ok_iff _ _ _).1 h
    cases h
    rcases List.mem_append.1 hd with hd | hd
    · rw [Option.mem_toList] at hd
      exact ⟨t, List.mem_cons_self .., hfirst.trans (congrArg Except.ok hd)⟩
    · obtain ⟨u, hu, hlight⟩ := ih hothers hd
      exact ⟨u, List.mem_cons_of_mem _ hu, hlight⟩

/-! ### Bodies of records -/

namespace Outline

mutual

def names : Outline → List String
  | .field name _ => [name]
  | .union body => namesAll body
  | .nested name _ body => name :: namesAll body

/-- The names of fields and nested records, in any depth. -/
def namesAll : List Outline → List String
  | [] => []
  | o :: rest => names o ++ namesAll rest

end

theorem namesAll_append (a b : List Outline) : namesAll (a ++ b) = namesAll a ++ namesAll b := by
  induction a with
  | nil => rfl
  | cons o rest ih => rw [List.cons_append, namesAll, namesAll, ih, List.append_assoc]

end Outline

namespace Body

mutual

def names : Body → List String
  | field f => [f.name]
  | union body => namesAll body
  | nested name body => name :: namesAll body

/-- The names that a body declares for fields and nested records, in any depth. -/
def namesAll : List Body → List String
  | [] => []
  | b :: rest => names b ++ namesAll rest

end

mutual

theorem names_outline (b : Body) : b.outline.names = b.names := by
  cases b with
  | field f => rfl
  | union body => rw [outline, Outline.names, namesAll_outlineAll body, names]
  | nested name body => rw [outline, Outline.names, namesAll_outlineAll body, names]

theorem namesAll_outlineAll (bs : List Body) : Outline.namesAll (outlineAll bs) = namesAll bs := by
  cases bs with
  | nil => rfl
  | cons b rest =>
    rw [outlineAll, Outline.namesAll, names_outline b, namesAll_outlineAll rest, namesAll]

end

end Body

section

variable (s : RecordSettings)

mutual

theorem declarable_of_outlineMember (scope : String) (visible : List String) (m : Member) :
    ∀ x ∈ (outlineMember s scope visible m).names, Declarable x := by
  cases m with
  | simple name type =>
    rw [outlineMember, Outline.names, List.forall_mem_singleton]
    exact mangle_declarable name
  | variant alternatives =>
    rw [outlineMember, Outline.names]
    exact declarable_of_outlineAlternatives scope visible alternatives
  | range name target constant baseName lengthName =>
    rw [outlineMember, Outline.names, List.forall_mem_singleton]
    exact mangle_declarable name

theorem declarable_of_outlineMembers (scope : String) (visible : List String) (ms : List Member) :
    ∀ x ∈ Outline.namesAll (outlineMembers s scope visible ms), Declarable x := by
  cases ms with
  | nil => simp [outlineMembers, Outline.namesAll]
  | cons m rest =>
    rw [outlineMembers, Outline.namesAll, List.forall_mem_append]
    exact ⟨declarable_of_outlineMember scope visible m,
      declarable_of_outlineMembers scope visible rest⟩

theorem declarable_of_outlineAlternative (scope : String) (visible : List String) (a : Alternative) :
    ∀ x ∈ Outline.namesAll (outlineAlternative s scope visible a), Declarable x := by
  match a with
  | .mk none members =>
    rw [outlineAlternative]
    exact declarable_of_outlineMembers scope visible members
  | .mk (some name) members =>
    rw [outlineAlternative, Outline.namesAll, Outline.namesAll, Outline.names, List.append_nil,
      List.forall_mem_cons]
    exact ⟨mangle_declarable name, declarable_of_outlineMembers _ _ members⟩

theorem declarable_of_outlineAlternatives (scope : String) (visible : List String)
    (as : List Alternative) :
    ∀ x ∈ Outline.namesAll (outlineAlternatives s scope visible as), Declarable x := by
  cases as with
  | nil => simp [outlineAlternatives, Outline.namesAll]
  | cons a rest =>
    rw [outlineAlternatives, Outline.namesAll_append, List.forall_mem_append]
    exact ⟨declarable_of_outlineAlternative scope visible a,
      declarable_of_outlineAlternatives scope visible rest⟩

end

end

/-! ### Types of fields -/

/-- The text of a field holds the name of the described type below its pointers, arrays and atomics, if
there is one: in the place where any way of spelling types puts it, as an identifier by itself or behind
the namespace. -/
def Site.TypeWellSpelled (s : RecordSettings) (p : Site) (text : String) : Prop :=
  match p.field.type.leafName? with
  | none => ∀ g, p.field.declaration s.rangeViewType (generatedWith g) = .ok text
  | some name => ∃ before after,
    (∀ g, p.field.declaration s.rangeViewType (generatedWith g) = .ok (before ++ g name ++ after)) ∧
    ∃ x, Declarable x ∧
      (text = before ++ x ++ after ∨ text = before ++ (s.space ++ "::" ++ x) ++ after)

theorem Site.typeWellSpelled_of_declaration {s : RecordSettings} {p : Site} {text : String}
    (h : p.declaration s = .ok text) : p.TypeWellSpelled s text := by
  rw [Site.declaration, insideRecord_eq] at h
  obtain ⟨before, after, hframe⟩ := p.field.declaration_generatedWith s.rangeViewType _ h
  have htext := Except.ok.inj (h.symm.trans (hframe _))
  unfold Site.TypeWellSpelled
  cases hname : p.field.type.leafName? with
  | none =>
    rw [hname] at hframe htext
    rw [htext]
    exact hframe
  | some name =>
    rw [hname] at hframe htext
    refine ⟨before, after, hframe, mangle name, mangle_declarable name, ?_⟩
    rw [htext, leafText, Option.elim_some]
    split
    · exact .inr rfl
    · exact .inl rfl

/-! ### Paths -/

/-- Between the dots of both paths stand identifiers. The length member of a view is not a name of the
description: it is left as the settings give it. -/
def SharedOffset.WellSpelled (lengthMember : Option String) (o : SharedOffset) : Prop :=
  (∀ part ∈ dotParts o.canonical, isIdentifier part = true) ∧
  ∃ way, (∀ part ∈ dotParts way, Declarable part) ∧
    match o.kind with
    | .field | .rangeBase => o.generated = way
    | .rangeLength => ∃ m, lengthMember = some m ∧ o.generated = way ++ "." ++ m

theorem isIdentifier_of_dotParts {parts : List String} (hne : parts ≠ [])
    (h : ∀ part ∈ parts, isIdentifier part = true) :
    ∀ part ∈ dotParts (dotted parts), isIdentifier part = true := by
  rw [dotParts_dotted hne fun part hpart => dotless_of_isIdentifier (h part hpart)]
  exact h

theorem Place.wellSpelled_offsets {p : Place} (h : ∀ n ∈ p.names, isIdentifier n = true)
    (lengthMember : Option String) : ∀ o ∈ p.offsets lengthMember, o.WellSpelled lengthMember := by
  have hcanonical : ∀ last ∈ p.baseName :: p.lengthName.toList,
      ∀ part ∈ dotParts (dotted (p.around ++ [last])), isIdentifier part = true := by
    intro last hlast
    refine isIdentifier_of_dotParts (by simp) fun part hpart => h part ?_
    rw [Place.names, List.mem_append, List.mem_cons]
    rcases List.mem_append.1 hpart with hpart | hpart
    · exact .inl hpart
    · rw [List.mem_singleton] at hpart
      exact .inr (.inr (hpart ▸ hlast))
  have hgenerated : ∀ part ∈ dotParts (dotted p.generatedParts), Declarable part := by
    rw [p.dotParts_generated]
    intro part hpart
    obtain ⟨name, _, rfl⟩ := List.mem_map.1 hpart
    exact mangle_declarable name
  have hbase := hcanonical p.baseName (List.mem_cons_self ..)
  intro o ho
  unfold Place.offsets at ho
  split at ho
  · rw [List.mem_singleton] at ho
    rw [ho]
    exact ⟨hbase, _, hgenerated, rfl⟩
  · next lengthName hl =>
    rcases List.mem_cons.1 ho with ho | ho
    · rw [ho]
      exact ⟨hbase, _, hgenerated, rfl⟩
    · cases lengthMember with
      | none => exact absurd ho List.not_mem_nil
      | some m =>
        rw [List.mem_singleton] at ho
        have hlength := hcanonical lengthName (by simp [hl])
        rw [ho]
        exact ⟨hlength, _, hgenerated, m, rfl, rfl⟩

/-! ### Headers -/

/-- The definition of a record holds identifiers wherever it holds names of the description. -/
structure RecordDefinition.WellSpelled (s : RecordSettings) (r : Record) (d : RecordDefinition) :
    Prop where
  name : Declarable d.name
  cname : isIdentifier d.cname = true
  declared : ∀ x ∈ Body.namesAll d.body, Declarable x
  types : List.Forall₂ (fun p f => Site.TypeWellSpelled s p f.text) (Record.sites r)
    (Body.fieldsAll d.body)
  offsets : ∀ o ∈ d.offsets, o.WellSpelled s.rangeLengthMember

theorem wellSpelled_of_definedAs {s : RecordSettings} {lead : String} {r : Record}
    {d : RecordDefinition} (hlead : isIdentifier lead = true) (hw : r.type.WellNamed)
    (h : DefinedAs s lead r d) : d.WellSpelled s r := by
  obtain ⟨body, hbody, rfl⟩ := h
  have hnames := declarable_of_outlineMembers s (mangle r.name) (declaredNames r.members) r.members
  rw [← outlineRecord, ← hbody, Body.namesAll_outlineAll] at hnames
  refine ⟨mangle_declarable r.name, isIdentifier_named hlead (hw.isFragment rfl), hnames, ?_, ?_⟩
  · have htexts : (Record.sites r).map (Site.declaration s) =
        (Body.fieldsAll body).map fun f => .ok f.text := by
      rw [← textsAll_outlineRecord, ← hbody, Body.textsAll_outlineAll]
    rw [← List.forall₂_eq_eq_eq, List.forall₂_map_left_iff, List.forall₂_map_right_iff] at htexts
    exact htexts.imp fun _ _ hp => Site.typeWellSpelled_of_declaration hp
  · show ∀ o ∈ sharedOffsets r.members s.rangeLengthMember, _
    rw [sharedOffsets_eq, List.forall_mem_flatMap]
    intro p hp
    exact Place.wellSpelled_offsets (fun n hn => isIdentifier_of_places hw hp hn) _

theorem wellNamed_of_includedRecords {s : Settings} {m : Model} {r : Record}
    (h : r ∈ includedRecords s m) : r.type.WellNamed := by
  obtain ⟨t, ht, hr⟩ := List.mem_filterMap.1 h
  have htype : t = r.type := by
    cases t with
    | record name members =>
      cases hr
      rfl
    | _ => cases hr
  rw [← htype]
  exact m.wellNamed t (List.mem_filter.1 ht).1

/-- In the headers of a model every name that stands for one of the description is an identifier. Those
of the generated side are mangled, so that they are no reserved words; those of the canonical side are
pasted behind a lead that is an identifier, or are parts of paths. -/
theorem renderHeaders_identifiers (s : Settings) (m : Model) (h : Headers)
    (hlead : isIdentifier s.canonicalLead = true) (hok : renderHeaders s m = .ok h) :
    ∃ (ds : List LightDeclaration) (rs : List RecordDefinition),
      h.types.contents =
        headerText m.name s.space s.typesFrame (ds.flatMap LightDeclaration.lines) ∧
      h.records.contents =
        headerText m.name s.space s.recordsFrame (rs.flatMap RecordDefinition.lines) ∧
      lightDeclarations s.canonicalLead (includedTypes s m) = .ok ds ∧
      List.Forall₂ (DefinedAs (recordSettings s) s.canonicalLead) (includedRecords s m) rs ∧
      (∀ d ∈ ds, d.WellSpelled) ∧
      List.Forall₂ (RecordDefinition.WellSpelled (recordSettings s)) (includedRecords s m) rs := by
  obtain ⟨ds, rs, hds, hrs, htypes, hrecords⟩ := renderHeaders_eq_ok hok
  refine ⟨ds, rs, htypes, hrecords, hds, hrs, ?_, ?_⟩
  · intro d hd
    obtain ⟨t, ht, hlight⟩ := mem_lightDeclarations hds hd
    exact wellSpelled_of_lightDeclaration hlead (m.wellNamed t (List.mem_filter.1 ht).1) hlight
  · rw [List.forall₂_iff_zip] at hrs ⊢
    refine ⟨hrs.1, fun {r d} hrd => ?_⟩
    have hr := wellNamed_of_includedRecords (List.of_mem_zip hrd).1
    exact wellSpelled_of_definedAs hlead hr (hrs.2 hrd)

/-- Types and members that are called like reserved words, and types whose names begin with digits. -/
def awkwardTypes : List AbiType :=
  [.aliasOf "2d" (.int .uint64),
    .intLike ⟨"errno", .uint16, true, some "E", [⟨"2big", 1⟩, ⟨"private", 2⟩]⟩,
    .record "2way"
      [.simple "class" (.pointer (.userDefined "errno") true),
        .variant
          [.mk (some "union") [.range "data" (.atomic (.userDefined "2d")) false "data" "data_len"],
            .mk none [.simple "rest" (.array (.userDefined "2way") 2)]]]]

def awkwardModel : Model := .ofTypes "awkward" awkwardTypes rfl

def awkwardSettings : Settings :=
  { Settings.standard with canonicalLead := "_", rangeLengthMember := some "_size" }

theorem renderHeaders_identifiers_awkward :
    isIdentifier awkwardSettings.canonicalLead = true ∧
    ∃ h, renderHeaders awkwardSettings awkwardModel = .ok h ∧
    ∃ (ds : List LightDeclaration) (rs : List RecordDefinition),
      h.types.contents = headerText "awkward" "cloudabi" .types (ds.flatMap LightDeclaration.lines) ∧
      h.records.contents =
        headerText "awkward" "cloudabi" .records (rs.flatMap RecordDefinition.lines) ∧
      lightDeclarations "_" (includedTypes awkwardSettings awkwardModel) = .ok ds ∧
      List.Forall₂ (DefinedAs (recordSettings awkwardSettings) "_")
        (includedRecords awkwardSettings awkwardModel) rs ∧
      (∀ d ∈ ds, d.WellSpelled) ∧
      List.Forall₂ (RecordDefinition.WellSpelled (recordSettings awkwardSettings))
        (includedRecords awkwardSettings awkwardModel) rs :=
  ⟨by decide, _, rfl, renderHeaders_identifiers awkwardSettings awkwardModel _ (by decide) rfl⟩

end AbiLayout.Cpp
