import AbiLayout.Proofs.Headers.Assembly
import AbiLayout.Proofs.Records.FirstFault

/-!
# What the settings do not decide

Settings say how things are called and which types are left out. Main statement: apart from what they
leave out, they decide neither whether headers can be written nor, if not, what is reported, and the
number of asserted offsets is the number of fields, with the ranges counted twice where the length of
their view is checked.
-/

namespace AbiLayout.Cpp

/-! ### The first fault -/

/-- The first fault of the types that are generated: that of an enumeration, or else of a record. -/
def generatedFault? (types : List AbiType) : Option RenderError :=
  ((types.filterMap AbiType.intLike?).findSome? intLikeFault?).or
    ((types.filterMap AbiType.record?).findSome? recordFault?)

theorem firstFault_eq_generatedFault? (s : Settings) (m : Model) :
    firstFault s m = generatedFault? (includedTypes s m) := by
  simp only [firstFault, generatedFault?, includedIntLikes, includedRecords, declareType_intLike_fault?,
    defineRecord_fault?]

theorem includedTypes_congr {s₁ s₂ : Settings} (h : s₁.exclude = s₂.exclude) (m : Model) :
    includedTypes s₁ m = includedTypes s₂ m := by
  have hexcludes : s₁.excludes = s₂.excludes := by
    funext name
    rw [Settings.excludes, h, Settings.excludes]
  rw [includedTypes, includedTypes, hexcludes]

/-! ### The number of offsets -/

def FieldMember.isRange : FieldMember → Bool
  | .simple _ _ => false
  | .range _ _ _ => true

/-- How many simple members there are among the fields, and how many ranges. -/
def simpleCount (sites : List Site) : Nat := sites.countP fun p => !p.field.isRange

def rangeCount (sites : List Site) : Nat := sites.countP fun p => p.field.isRange

/-- One offset for each field, and one more for each range where the length of its view is known. -/
def offsetCount (lengthMember : Option String) (sites : List Site) : Nat :=
  simpleCount sites + rangeCount sites + if lengthMember.isSome then rangeCount sites else 0

theorem offsetCount_append (lengthMember : Option String) (a b : List Site) :
    offsetCount lengthMember (a ++ b) = offsetCount lengthMember a + offsetCount lengthMember b := by
  simp only [offsetCount, simpleCount, rangeCount, List.countP_append]
  split <;> omega

section

variable (lengthMember : Option String)

mutual

theorem length_memberOffsets (path : DualPath) (scopes : List (List Member)) (m : Member) :
    (memberOffsets path lengthMember m).length = offsetCount lengthMember (memberSites scopes m) := by
  cases m with
  | simple name type => cases lengthMember <;> rfl
  | variant alternatives =>
    rw [memberOffsets, memberSites, length_alternativesOffsets path scopes alternatives]
  | range name target constant baseName lengthName => cases lengthMember <;> rfl

theorem length_membersOffsets (path : DualPath) (scopes : List (List Member)) (ms : List Member) :
    (membersOffsets path lengthMember ms).length =
      offsetCount lengthMember (membersSites scopes ms) := by
  cases ms with
  | nil => cases lengthMember <;> rfl
  | cons m rest =>
    rw [membersOffsets, membersSites, List.length_append, offsetCount_append,
      length_memberOffsets path scopes m, length_membersOffsets path scopes rest]

theorem length_alternativeOffsets (path : DualPath) (scopes : List (List Member)) (a : Alternative) :
    (alternativeOffsets path lengthMember a).length =
      offsetCount lengthMember (alternativeSites scopes a) := by
  match a with
  | .mk none members =>
    rw [alternativeOffsets, alternativeSites, length_membersOffsets path scopes members]
  | .mk (some name) members =>
    rw [alternativeOffsets, alternativeSites, length_membersOffsets (path.into name) _ members]

theorem length_alternativesOffsets (path : DualPath) (scopes : List (List Member))
    (as : List Alternative) :
    (alternativesOffsets path lengthMember as).length =
      offsetCount lengthMember (alternativesSites scopes as) := by
  cases as with
  | nil => cases lengthMember <;> rfl
  | cons a rest =>
    rw [alternativesOffsets, alternativesSites, List.length_append, offsetCount_append,
      length_alternativeOffsets path scopes a, length_alternativesOffsets path scopes rest]

end

theorem length_sharedOffsets (r : Record) :
    (sharedOffsets r.members lengthMember).length = offsetCount lengthMember (Record.sites r) :=
  length_membersOffsets lengthMember .root [r.members] r.members

end

theorem result_of_defineRecord {s : RecordSettings} {lead : String} {r : Record} {n : Nat}
    (h : (defineRecord s lead r).result = .ok n) :
    n = offsetCount s.rangeLengthMember (Record.sites r) := by
  obtain ⟨hscope, body, hbody⟩ := exists_body_of_defineRecord h
  rw [defineRecord_of_body s lead r body hscope hbody, Except.ok.injEq] at h
  rw [← h, length_sharedOffsets]

theorem sum_of_defineRecords {s : RecordSettings} {lead : String} {records : List Record}
    {counts : List Nat}
    (h : List.Forall₂ (fun r n => (defineRecord s lead r).result = .ok n) records counts) :
    counts.sum = (records.map fun r => offsetCount s.rangeLengthMember (Record.sites r)).sum := by
  induction h with
  | nil => rfl
  | cons hn _ ih => rw [List.sum_cons, List.map_cons, List.sum_cons, ← ih, result_of_defineRecord hn]

/-! ### Two settings -/

/-- Under two settings that leave out the same types, either both headers can be written or both runs end
with the same fault; and the offsets that are asserted are one for each simple member and each range of
an included record, in alternatives of any depth, and one more for each range exactly if the settings
name the length of the view. -/
theorem renderHeaders_independent (m : Model) (s₁ s₂ : Settings) (hexclude : s₁.exclude = s₂.exclude) :
    ((∃ h₁ h₂, renderHeaders s₁ m = .ok h₁ ∧ renderHeaders s₂ m = .ok h₂) ∨
      ∃ e, renderHeaders s₁ m = .error e ∧ renderHeaders s₂ m = .error e) ∧
    ∀ h, renderHeaders s₁ m = .ok h →
      h.offsetCount = ((includedRecords s₁ m).map fun r =>
        simpleCount (Record.sites r) + rangeCount (Record.sites r) +
          if s₁.rangeLengthMember.isSome then rangeCount (Record.sites r) else 0).sum := by
  have hfault : firstFault s₁ m = firstFault s₂ m := by
    rw [firstFault_eq_generatedFault?, firstFault_eq_generatedFault?, includedTypes_congr hexclude]
  constructor
  · cases hfirst : firstFault s₁ m with
    | none =>
      obtain ⟨h₁, hok₁⟩ := (renderHeaders_finishes_iff s₁ m).2 hfirst
      obtain ⟨h₂, hok₂⟩ := (renderHeaders_finishes_iff s₂ m).2 (hfault ▸ hfirst)
      exact .inl ⟨h₁, h₂, hok₁, hok₂⟩
    | some e =>
      have herror₁ := (renderHeaders_eq_error_iff_first s₁ m e).2 hfirst
      have herror₂ := (renderHeaders_eq_error_iff_first s₂ m e).2 (hfault ▸ hfirst)
      exact .inr ⟨e, herror₁, herror₂⟩
  · intro h hok
    obtain ⟨counts, hcounts, hsum⟩ := (assembled_of_renderHeaders hok).counted
    rw [hsum, sum_of_defineRecords hcounts]
    rfl

/-- Settings that have nothing in common with the standard ones but what they leave out. -/
def sizedSettings : Settings where
  space := "abi"
  canonicalLead := "sys_"
  exclude := Settings.standard.exclude
  rangeViewType := "std::span"
  rangeLengthMember := some "_size"
  typesFrame := ⟨"types.hpp", "TYPES", ""⟩
  recordsFrame := ⟨"records.hpp", "RECORDS", ""⟩

def taggedModel : Model := .ofTypes "events" [taggedEvent.type] rfl

theorem renderHeaders_independent_taggedEvent :
    Settings.standard.exclude = sizedSettings.exclude ∧
    (∃ h₁ h₂, renderHeaders .standard taggedModel = .ok h₁ ∧
      renderHeaders sizedSettings taggedModel = .ok h₂ ∧ h₁.offsetCount = 4 ∧ h₂.offsetCount = 5) ∧
    ∃ e, renderHeaders .standard faultyModel = .error e ∧
      renderHeaders sizedSettings faultyModel = .error e := by
  obtain ⟨h, hok⟩ : ∃ h, renderHeaders .standard taggedModel = .ok h := ⟨_, rfl⟩
  obtain ⟨hboth, hcount⟩ := renderHeaders_independent taggedModel .standard sizedSettings rfl
  obtain ⟨_, hcount'⟩ := renderHeaders_independent taggedModel sizedSettings .standard rfl
  have hfaulty := (renderHeaders_independent faultyModel .standard sizedSettings rfl).1
  refine ⟨rfl, ?_, ?_⟩
  · rcases hboth with ⟨h₁, h₂, hok₁, hok₂⟩ | ⟨e, herror, _⟩
    · exact ⟨h₁, h₂, hok₁, hok₂, hcount h₁ hok₁, hcount' h₂ hok₂⟩
    · rw [hok] at herror
      cases herror
  · rcases hfaulty with ⟨h₁, _, hok₁, _⟩ | herror
    · have hno : renderHeaders .standard faultyModel ≠ .ok h₁ := by
        intro hok
        cases hok
      exact absurd hok₁ hno
    · exact herror

end AbiLayout.Cpp
