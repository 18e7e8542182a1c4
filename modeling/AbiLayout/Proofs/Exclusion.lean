import AbiLayout.Proofs.Reports.Restriction

/-!
# Exclusion

A type that is excluded might as well not be described. Main statement: headers and reports of a model
are those of the model without its excluded types, under settings that exclude nothing.
-/

namespace AbiLayout

open Cpp

/-- The same settings, but for the excluded types: there are none. -/
def Settings.excludingNothing (s : Settings) : Settings := { s with exclude := .empty }

theorem Settings.excludes_excludingNothing (s : Settings) (name : String) :
    s.excludingNothing.excludes name = false := rfl

theorem Model.typesFault?_includedTypes (m : Model) (s : Settings) :
    typesFault? [] (includedTypes s m) = none := by
  have hwell : ∀ t ∈ includedTypes s m, t.WellNamed := fun t ht =>
    m.wellNamed t (List.mem_of_mem_filter ht)
  have hdistinct : ((includedTypes s m).filterMap AbiType.name?).Nodup :=
    m.distinct.sublist (List.filter_sublist.filterMap AbiType.name?)
  exact (typesFault?_eq_none_iff [] _).2 ⟨hwell, hdistinct, fun _ _ => List.not_mem_nil⟩

/-- The model of the types that are not excluded. -/
def Model.without (m : Model) (s : Settings) : Model :=
  .ofTypes m.name (includedTypes s m) (m.typesFault?_includedTypes s)

theorem includedTypes_excludingNothing (s : Settings) (m : Model) :
    includedTypes s.excludingNothing m = m.types := by
  rw [includedTypes, List.filter_eq_self]
  intro t _
  cases t.name? with
  | none => rfl
  | some name => rw [Option.any_some, s.excludes_excludingNothing]; rfl

theorem includedTypes_without (s : Settings) (m : Model) :
    includedTypes s.excludingNothing (m.without s) = includedTypes s m :=
  includedTypes_excludingNothing s (m.without s)

/-- Headers are made from the name of the model and its included types. -/
theorem renderHeaders_congr {s₁ s₂ : Settings} {m₁ m₂ : Model} (hname : m₁.name = m₂.name)
    (htypes : includedTypes s₁ m₁ = includedTypes s₂ m₂)
    (hs : s₁.excludingNothing = s₂.excludingNothing) : renderHeaders s₁ m₁ = renderHeaders s₂ m₂ := by
  -- the settings agree in all but what they exclude, which shows in the included types alone
  obtain ⟨space, lead, exclude, view, length, typesFrame, recordsFrame⟩ := s₁
  obtain ⟨space', lead', exclude', view', length', typesFrame', recordsFrame'⟩ := s₂
  have hrecords : includedRecords ⟨space, lead, exclude, view, length, typesFrame, recordsFrame⟩ m₁ =
      includedRecords ⟨space', lead', exclude', view', length', typesFrame', recordsFrame'⟩ m₂ := by
    rw [includedRecords, includedRecords, htypes]
  rw [Settings.excludingNothing, Settings.excludingNothing, Settings.mk.injEq] at hs
  obtain ⟨rfl, rfl, _, rfl, rfl, rfl, rfl⟩ := hs
  simp only [renderHeaders, renderTypes, renderRecords, typesHeader, recordsHeader, hname, htypes,
    hrecords, recordSettings]

/-- The report on a model and the one on its included types differ in what is left out. -/
theorem Report.ofModel_without (s : Settings) (m : Model) (only : Option String) :
    (Report.ofModel s m only).enums =
        (Report.ofModel s.excludingNothing (m.without s) only).enums ∧
      (Report.ofModel s m only).records =
        (Report.ofModel s.excludingNothing (m.without s) only).records := by
  have hkept : (reportedTypes m.types only).filter (fun t => !(t.name?.any s.excludes)) =
      (reportedTypes (m.without s).types only).filter fun t =>
        !(t.name?.any s.excludingNothing.excludes) := by
    rw [reportedTypes_filter, reportedTypes_filter]
    exact congrArg (reportedTypes · only) (includedTypes_without s m).symm
  constructor
  · show (List.filterMap _ (List.filter _ (reportedTypes m.types only))).map _ = _
    rw [hkept]
    rfl
  · show (List.filterMap _ (List.filter _ (reportedTypes m.types only))).map _ = _
    rw [hkept]
    rfl

/-- Excluding types is deleting them: what is left makes a model, whose headers, or fault in rendering
them, under settings that exclude nothing are those of the whole model, and whose reports have the same
entries. So headers do not depend on what the excluded types are. -/
theorem excluding_is_deleting (s : Settings) (m : Model) :
    (∃ kept : Model,
      Model.build m.name (m.types.filter fun t => !(t.name?.any s.excludes)) = .ok kept ∧
      renderHeaders s m = renderHeaders s.excludingNothing kept ∧
      ∀ only, ∃ r r', analyze s m only = .ok r ∧ analyze s.excludingNothing kept only = .ok r' ∧
        r.enums = r'.enums ∧ r.records = r'.records ∧ r.offsetCount = r'.offsetCount) ∧
    ∀ other : Model, other.name = m.name →
      (other.types.filter fun t => !(t.name?.any s.excludes)) =
        (m.types.filter fun t => !(t.name?.any s.excludes)) →
      renderHeaders s other = renderHeaders s m := by
  refine ⟨⟨m.without s, (m.without s).build_self, ?_, fun only => ?_⟩, ?_⟩
  · exact renderHeaders_congr rfl (includedTypes_without s m).symm rfl
  · obtain ⟨henums, hrecords⟩ := Report.ofModel_without s m only
    refine ⟨_, _, analyze_eq s m only, analyze_eq _ _ only, henums, hrecords, ?_⟩
    rw [Report.offsetCount, Report.offsetCount, hrecords]
  · intro other hname htypes
    exact renderHeaders_congr hname htypes rfl

/-- A record in front of one that refers to it. -/
def typesOver (fd : List Member) : List AbiType :=
  [.record "fd" fd, .record "fdstat" [.simple "target" (.pointer (.userDefined "fd") false)]]

/-- The record in front cannot be written. -/
def brokenModel : Model := .ofTypes "host" (typesOver [.simple "raw" .void]) rfl

def soundModel : Model := .ofTypes "host" (typesOver [.simple "raw" (.int .uint32)]) rfl

theorem excluding_is_deleting_fd :
    renderHeaders Settings.standard.excludingNothing brokenModel = .error (.voidValue "raw") ∧
    (∃ kept, Model.build "host" (typesOver []).tail = .ok kept ∧
      renderHeaders .standard brokenModel =
        renderHeaders Settings.standard.excludingNothing kept ∧
      ∀ only, ∃ r r', analyze .standard brokenModel only = .ok r ∧
        analyze Settings.standard.excludingNothing kept only = .ok r' ∧
        r.enums = r'.enums ∧ r.records = r'.records ∧ r.offsetCount = r'.offsetCount) ∧
    renderHeaders .standard soundModel = renderHeaders .standard brokenModel := by
  have hdeleted := excluding_is_deleting .standard brokenModel
  have hkept : brokenModel.types.filter (fun t => !(t.name?.any Settings.standard.excludes)) =
      (typesOver []).tail := by rfl
  rw [hkept] at hdeleted
  exact ⟨by rfl, hdeleted.1, hdeleted.2 soundModel rfl rfl⟩

end AbiLayout
