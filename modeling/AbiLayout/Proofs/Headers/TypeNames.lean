import AbiLayout.Proofs.Headers.Assembly
import AbiLayout.Proofs.Names.Collision

/-!
# Names at namespace scope

The types of a model have different names, but what the headers declare are identifiers made from these
names, and nothing compares those. Main statement: the declared names of a header are pairwise different
exactly if none of the names they stand for is bent into another.
-/

namespace AbiLayout

/-! ### Names of the types of a model -/

theorem AbiType.name?_mem_names {t : AbiType} {name : String} (h : t.name? = some name) :
    ⟨.type, name⟩ ∈ t.names := by
  cases t with
  | aliasOf n underlying =>
    cases h
    exact List.mem_cons_self ..
  | intLike body =>
    cases h
    exact List.mem_cons_self ..
  | userDefined n =>
    cases h
    exact List.mem_cons_self ..
  | record n members =>
    cases h
    exact List.mem_cons_self ..
  | _ => cases h

theorem AbiType.WellNamed.isFragment {t : AbiType} (h : t.WellNamed) {name : String}
    (hname : t.name? = some name) : Text.isFragment name = true :=
  h ⟨.type, name⟩ (AbiType.name?_mem_names hname)

theorem Model.isFragment_of_mem (m : Model) {name : String}
    (h : name ∈ m.types.filterMap AbiType.name?) : Text.isFragment name = true := by
  obtain ⟨t, ht, hname⟩ := List.mem_filterMap.1 h
  exact (m.wellNamed t ht).isFragment hname

theorem filterMap_sublist {α β : Type} {f g : α → Option β}
    (h : ∀ a b, f a = some b → g a = some b) (l : List α) :
    (l.filterMap f).Sublist (l.filterMap g) := by
  induction l with
  | nil => exact .slnil
  | cons a rest ih =>
    cases hf : f a with
    | none =>
      rw [List.filterMap_cons_none hf]
      cases hg : g a with
      | none =>
        rw [List.filterMap_cons_none hg]
        exact ih
      | some b =>
        rw [List.filterMap_cons_some hg]
        exact ih.cons b
    | some b =>
      rw [List.filterMap_cons_some hf, List.filterMap_cons_some (h a b hf)]
      exact ih.cons_cons b

end AbiLayout

namespace AbiLayout.Cpp

/-! ### Names that a header declares -/

/-- The names of the included types that have a light declaration. -/
def lightNames (s : Settings) (m : Model) : List String :=
  (includedTypes s m).filterMap AbiType.lightName?

def recordNames (s : Settings) (m : Model) : List String :=
  (includedRecords s m).map Record.name

theorem lightNames_sublist (s : Settings) (m : Model) :
    (lightNames s m).Sublist (m.types.filterMap AbiType.name?) := by
  have hlight : (lightNames s m).Sublist ((includedTypes s m).filterMap AbiType.name?) :=
    filterMap_sublist (fun t name h => t.name?_of_lightName? h) (includedTypes s m)
  exact hlight.trans (List.filter_sublist.filterMap _)

theorem recordNames_sublist (s : Settings) (m : Model) :
    (recordNames s m).Sublist (lightNames s m) := by
  rw [recordNames, includedRecords, List.map_filterMap]
  refine filterMap_sublist (fun t name h => ?_) (includedTypes s m)
  obtain ⟨r, hr, hname⟩ := Option.map_eq_some_iff.1 h
  rw [← hname]
  exact AbiType.lightName?_of_record? hr

/-- Names of types of a model are declared under different identifiers exactly if none of them is bent
into another. -/
theorem nodup_mangle_iff_of_sublist {m : Model} {names : List String}
    (h : names.Sublist (m.types.filterMap AbiType.name?)) :
    (names.map mangle).Nodup ↔ ∀ x ∈ names, ∀ y ∈ names, ¬ BendsTo x y :=
  nodup_map_mangle_iff (fun _ hx => m.isFragment_of_mem (h.subset hx)) (m.distinct.sublist h)

/-- The names that headers declare at namespace scope: those of the first are pairwise different exactly
if no included name is bent into another, and so are those of the second. -/
theorem renderHeaders_names_nodup_iff (s : Settings) (m : Model) (h : Headers)
    (hok : renderHeaders s m = .ok h) :
    ∃ (ds : List LightDeclaration) (rs : List RecordDefinition),
      h.types.contents =
        headerText m.name s.space s.typesFrame (ds.flatMap LightDeclaration.lines) ∧
      h.records.contents =
        headerText m.name s.space s.recordsFrame (rs.flatMap RecordDefinition.lines) ∧
      ds.map LightDeclaration.name = (lightNames s m).map mangle ∧
      rs.map RecordDefinition.name = (recordNames s m).map mangle ∧
      ((ds.map LightDeclaration.name).Nodup ↔
        ∀ x ∈ lightNames s m, ∀ y ∈ lightNames s m, ¬ BendsTo x y) ∧
      ((rs.map RecordDefinition.name).Nodup ↔
        ∀ x ∈ recordNames s m, ∀ y ∈ recordNames s m, ¬ BendsTo x y) := by
  obtain ⟨ds, rs, hds, hrs, htypes, hrecords⟩ := renderHeaders_eq_ok hok
  have hlight : ds.map LightDeclaration.name = (lightNames s m).map mangle :=
    names_of_lightDeclarations hds
  have hrecord : rs.map RecordDefinition.name = (recordNames s m).map mangle :=
    names_of_definitions hrs
  refine ⟨ds, rs, htypes, hrecords, hlight, hrecord, ?_, ?_⟩
  · rw [hlight]
    exact nodup_mangle_iff_of_sublist (lightNames_sublist s m)
  · rw [hrecord]
    exact nodup_mangle_iff_of_sublist ((recordNames_sublist s m).trans (lightNames_sublist s m))

/-- Names of every sort: a replaced one, a reserved word, one with a digit in front, one that is not
declared although it is a replacement, and one that is excluded. -/
def mixedTypes : List AbiType :=
  [.aliasOf "errno" (.int .uint16), .userDefined "error",
    .intLike ⟨"class", .uint8, true, none, [⟨"read", 1⟩, ⟨"write", 2⟩]⟩,
    .record "2big" [.simple "data" (.pointer .void true)], .record "fd" []]

theorem typesFault?_mixedTypes : typesFault? [] mixedTypes = none := by rfl

def mixedModel : Model := .ofTypes "mixed" mixedTypes typesFault?_mixedTypes

theorem renderHeaders_names_nodup_iff_mixed :
    ∃ h, renderHeaders .standard mixedModel = .ok h ∧
    ∃ (ds : List LightDeclaration) (rs : List RecordDefinition),
      h.types.contents =
        headerText "mixed" "cloudabi" .types (ds.flatMap LightDeclaration.lines) ∧
      h.records.contents =
        headerText "mixed" "cloudabi" .records (rs.flatMap RecordDefinition.lines) ∧
      ds.map LightDeclaration.name = ["errno", "class", "2big"].map mangle ∧
      rs.map RecordDefinition.name = ["2big"].map mangle ∧
      ((ds.map LightDeclaration.name).Nodup ↔
        ∀ x ∈ ["errno", "class", "2big"], ∀ y ∈ ["errno", "class", "2big"], ¬ BendsTo x y) ∧
      ((rs.map RecordDefinition.name).Nodup ↔ ∀ x ∈ ["2big"], ∀ y ∈ ["2big"], ¬ BendsTo x y) :=
  ⟨_, rfl, renderHeaders_names_nodup_iff .standard mixedModel _ rfl⟩

/-- A reserved word beside the identifier that stands for it. -/
def keywordTypes : List AbiType := [.record "class" [], .record "class_" []]

theorem typesFault?_keywordTypes : typesFault? [] keywordTypes = none := by rfl

def keywordModel : Model := .ofTypes "clash" keywordTypes typesFault?_keywordTypes

/-- The two types make a model, both headers are written, and each declares one name twice. -/
theorem reserved_word_shares_name :
    Model.build "clash" keywordTypes = .ok keywordModel ∧
    ∃ (h : Headers) (ds : List LightDeclaration) (rs : List RecordDefinition),
      renderHeaders .standard keywordModel = .ok h ∧
      h.types.contents =
        headerText "clash" "cloudabi" .types (ds.flatMap LightDeclaration.lines) ∧
      h.records.contents =
        headerText "clash" "cloudabi" .records (rs.flatMap RecordDefinition.lines) ∧
      ds.map LightDeclaration.name = ["class_", "class_"] ∧
      rs.map RecordDefinition.name = ["class_", "class_"] ∧
      ¬ (ds.map LightDeclaration.name).Nodup ∧ ¬ (rs.map RecordDefinition.name).Nodup := by
  have hok : ∃ h, renderHeaders .standard keywordModel = .ok h := ⟨_, rfl⟩
  obtain ⟨h, hok⟩ := hok
  obtain ⟨ds, rs, hds, hrs, htypes, hrecords⟩ := renderHeaders_eq_ok hok
  have hlight : ds.map LightDeclaration.name = ["class_", "class_"] :=
    names_of_lightDeclarations hds
  have hrecord : rs.map RecordDefinition.name = ["class_", "class_"] := names_of_definitions hrs
  have htwice : ¬ ["class_", "class_"].Nodup := by decide
  refine ⟨rfl, h, ds, rs, hok, htypes, hrecords, hlight, hrecord, ?_, ?_⟩
  · rw [hlight]
    exact htwice
  · rw [hrecord]
    exact htwice

end AbiLayout.Cpp
