import AbiLayout.Proofs.Documents.ByKey
import AbiLayout.Settings.Reading

/-!
# What a configuration says

A configuration gives some settings and leaves out others. What it says is told key by key, without the
defaults and whatever the order of its entries; and each choice of what to say can be written. Main
statement: settings are read from a document exactly if each of them is what is said, where something is
said, and every frame that is given has its name and its guard.
-/

namespace AbiLayout

open Document
open Document.Reading (Takes Counts takes_pure_iff takes_bind_iff takes_bind_pure_iff)

/-! ### What a configuration says -/

/-- What a configuration says about the frame of a header. -/
structure FrameLayer where
  fileName : Option String
  headerGuard : Option String
  preamble : Option String
deriving DecidableEq, Repr

/-- What a configuration says; what it does not mention is absent. -/
structure Layer where
  space : Option String
  canonicalLead : Option String
  exclude : Option (List String)
  rangeViewType : Option String
  /-- A configuration can mention the length member and say that there is none. -/
  rangeLengthMember : Option (Option String)
  typesFrame : Option FrameLayer
  recordsFrame : Option FrameLayer
deriving DecidableEq, Repr

section

variable {S : Type} (fmt : Format S)

/-- Reads what is said about a frame, key by key. -/
def readFrameLayer (n : Node S) : Reading S FrameLayer := do
  let entries ← fmt.readObject ["file-name", "header-guard", "preamble"] n
  let fileName ← readUnder entries "file-name" fmt.readText
  let headerGuard ← readUnder entries "header-guard" fmt.readText
  let preamble ← readUnder entries "preamble" fmt.readText
  return { fileName, headerGuard, preamble }

/-- Reads what a configuration says, key by key. -/
def readLayer (n : Node S) : Reading S Layer := do
  let entries ← fmt.readObject ["namespace", "canonical-prefix", "exclude", "range-view-type",
    "range-length-member", "types-artifact", "structs-artifact"] n
  let space ← readUnder entries "namespace" fmt.readText
  let canonicalLead ← readUnder entries "canonical-prefix" fmt.readText
  let exclude ← readUnder entries "exclude" (fmt.readSequence (some fmt.readText))
  let rangeViewType ← readUnder entries "range-view-type" fmt.readText
  let rangeLengthMember ← readUnder entries "range-length-member" (fmt.readOptional fmt.readText)
  let typesFrame ← readUnder entries "types-artifact" (readFrameLayer fmt)
  let recordsFrame ← readUnder entries "structs-artifact" (readFrameLayer fmt)
  return { space, canonicalLead, exclude, rangeViewType, rangeLengthMember, typesFrame, recordsFrame }

end

/-- A frame that is given in full, but for the preamble, which is empty where it is absent. -/
structure FrameLayer.Completes (block : FrameLayer) (frame : HeaderFrame) : Prop where
  fileName : block.fileName = some frame.fileName
  headerGuard : block.headerGuard = some frame.headerGuard
  preamble : frame.preamble = block.preamble.getD ""

/-! ### Frames -/

section

variable {S : Type} {fmt : Format S} (hfmt : fmt.structAsSequence = false) {targets : Array (Node S)}

instance : Shape.Lawful frameShape where
  mem_fields f := by cases f <;> decide
  nodup_keys := by decide

instance : Shape.Lawful settingsShape where
  mem_fields f := by cases f <;> decide
  nodup_keys := by decide

theorem counts_required {sh : Shape} (draft : sh.Draft) (f : sh.Field) :
    Counts (draft.required f : Reading S (sh.Value f)) := by
  unfold Shape.Draft.required
  split
  · exact .pure _
  · exact .throw _

theorem takes_required_iff {sh : Shape} {draft : sh.Draft} {f : sh.Field} {v : sh.Value f} {k : Nat} :
    Takes targets (draft.required f : Reading S (sh.Value f)) v k ↔ draft f = some v ∧ k = 0 := by
  unfold Shape.Draft.required
  split
  · next x h => rw [takes_pure_iff, h, Option.some.injEq, eq_comm]
  · next h => simp [Reading.not_takes_throw, h]

theorem counts_readUnderText (fmt : Format S) (entries : List (String × Node S)) (key : String) :
    Counts (readUnder entries key fmt.readText) :=
  counts_readUnder (counts_readText fmt) entries key

/-- What is said about a frame, key by key. -/
theorem takes_readFrameLayer_iff {n : Node S} {block : FrameLayer} {k : Nat} :
    Takes targets (readFrameLayer fmt n) block k ↔
      ∃ keyed i, ∃ followed : FrameField → Nat,
        Takes targets (fmt.readObject ["file-name", "header-guard", "preamble"] n) keyed i ∧
        Takes targets (readUnder keyed "file-name" fmt.readText) block.fileName (followed .fileName) ∧
        Takes targets (readUnder keyed "header-guard" fmt.readText) block.headerGuard
          (followed .headerGuard) ∧
        Takes targets (readUnder keyed "preamble" fmt.readText) block.preamble (followed .preamble) ∧
        k = i + frameShape.total followed := by
  constructor
  · intro h
    simp only [readFrameLayer, takes_bind_iff (counts_readObject fmt _ n),
      takes_bind_iff (counts_readUnderText fmt _ _), takes_pure_iff] at h
    obtain ⟨keyed, i, _, hobject, ⟨fileName, i₁, _, h₁, ⟨headerGuard, i₂, _, h₂, ⟨preamble, i₃, _, h₃,
      ⟨rfl, rfl⟩, rfl⟩, rfl⟩, rfl⟩, rfl⟩ := h
    exact ⟨keyed, i, FrameField.rec i₁ i₂ _, hobject, h₁, h₂, h₃, rfl⟩
  · rintro ⟨keyed, i, followed, hobject, h₁, h₂, h₃, rfl⟩
    exact hobject.bind (h₁.bind (h₂.bind (h₃.bind (takes_pure_iff.2 ⟨rfl, rfl⟩))))

section

include hfmt

theorem counts_readFrameDraft (n : Node S) :
    Counts (fmt.readStruct frameShape (some fun _ => fmt.readText) n) :=
  counts_readStruct (fun _ => counts_readText fmt) hfmt n

theorem counts_readFrame (depth : Nat) (n : Node S) : Counts (readFrame fmt (depth + 1) n) :=
  (counts_readFrameDraft hfmt n).bind fun draft => (counts_required draft .fileName).bind fun _ =>
    (counts_required draft .headerGuard).bind fun _ => .pure _

theorem takes_readFrame_iff_draft {depth : Nat} {n : Node S} {frame : HeaderFrame} {k : Nat} :
    Takes targets (readFrame fmt (depth + 1) n) frame k ↔ ∃ draft : frameShape.Draft,
      Takes targets (fmt.readStruct frameShape (some fun _ => fmt.readText) n) draft k ∧
        draft .fileName = some frame.fileName ∧ draft .headerGuard = some frame.headerGuard ∧
        frame.preamble = (draft .preamble).getD "" := by
  unfold readFrame
  rw [takes_bind_iff (counts_readFrameDraft hfmt n)]
  simp only [takes_bind_iff (counts_required _ _), takes_pure_iff]
  constructor
  · rintro ⟨draft, i, _, hstruct, ⟨fileName, _, _, hname, ⟨headerGuard, _, _, hguard, ⟨rfl, rfl⟩, rfl⟩, rfl⟩,
      rfl⟩
    obtain ⟨hname', rfl⟩ := takes_required_iff.1 hname
    obtain ⟨hguard', rfl⟩ := takes_required_iff.1 hguard
    exact ⟨draft, hstruct, hname', hguard', rfl⟩
  · rintro ⟨draft, hstruct, hname, hguard, hpreamble⟩
    refine ⟨draft, k, 0, hstruct, ⟨_, 0, 0, takes_required_iff.2 ⟨hname, rfl⟩, ⟨_, 0, 0,
      takes_required_iff.2 ⟨hguard, rfl⟩, ⟨?_, rfl⟩, rfl⟩, rfl⟩, rfl⟩
    rw [← hpreamble]

/-- A frame is read exactly if what is said about it makes a frame. -/
theorem takes_readFrame_iff {depth : Nat} {n : Node S} {frame : HeaderFrame} {k : Nat} :
    Takes targets (readFrame fmt (depth + 1) n) frame k ↔
      ∃ block, Takes targets (readFrameLayer fmt n) block k ∧ block.Completes frame := by
  have hdraft : ∀ draft : frameShape.Draft,
      Takes targets (fmt.readStruct frameShape (some fun _ => fmt.readText) n) draft k ↔ _ :=
    fun _ => takes_readStruct_iff (fun _ => counts_readText fmt) hfmt
  simp only [takes_readFrame_iff_draft hfmt, hdraft, takes_readFrameLayer_iff]
  constructor
  · rintro ⟨draft, ⟨keyed, i, followed, hobject, hfields, rfl⟩, hname, hguard, hpreamble⟩
    exact ⟨⟨draft .fileName, draft .headerGuard, draft .preamble⟩, ⟨keyed, i, followed, hobject,
      hfields .fileName, hfields .headerGuard, hfields .preamble, rfl⟩, hname, hguard, hpreamble⟩
  · rintro ⟨block, ⟨keyed, i, followed, hobject, h₁, h₂, h₃, rfl⟩, hblock⟩
    refine ⟨FrameField.rec block.fileName block.headerGuard block.preamble,
      ⟨keyed, i, followed, hobject, ?_, rfl⟩, hblock.fileName, hblock.headerGuard, hblock.preamble⟩
    intro f
    cases f with
    | fileName => exact h₁
    | headerGuard => exact h₂
    | preamble => exact h₃

end

/-! ### Settings -/

theorem counts_readFrameLayer (n : Node S) : Counts (readFrameLayer fmt n) := by
  refine (counts_readObject fmt _ n).bind fun keyed => ?_
  refine (counts_readUnderText fmt keyed _).bind fun _ => ?_
  refine (counts_readUnderText fmt keyed _).bind fun _ => ?_
  exact (counts_readUnderText fmt keyed _).bind fun _ => .pure _

theorem counts_readTexts (n : Node S) : Counts (fmt.readSequence (some fmt.readText) n) := by
  refine counts_readSequence fmt (fun reader hreader m => ?_) n
  cases hreader
  exact counts_readText fmt m

theorem counts_readNames (depth : Nat) (n : Node S) : Counts (readNames fmt (depth + 1) n) :=
  (counts_readTexts n).bind fun _ => .pure _

theorem takes_readNames_iff {depth : Nat} {n : Node S} {names : NameSet} {k : Nat} :
    Takes targets (readNames fmt (depth + 1) n) names k ↔
      ∃ list, Takes targets (fmt.readSequence (some fmt.readText) n) list k ∧ names = .ofList list :=
  takes_bind_pure_iff (counts_readTexts n)

/-- Two ways to read what stands under a key are related if they are for what can stand there. -/
theorem takes_readUnder_of_iff {V W : Type} {reader : Node S → Reading S V}
    {reader' : Node S → Reading S W} (hreader : ∀ n, Counts (reader n))
    (hreader' : ∀ n, Counts (reader' n)) {rel : W → V → Prop}
    (h : ∀ n v k, Takes targets (reader n) v k ↔ ∃ w, Takes targets (reader' n) w k ∧ rel w v)
    {keyed : List (String × Node S)} {key : String} {held : Option V} {k : Nat} :
    Takes targets (readUnder keyed key reader) held k ↔
      ∃ held', Takes targets (readUnder keyed key reader') held' k ∧ Option.Rel rel held' held := by
  unfold readUnder
  cases keyed.lookup key with
  | none =>
    simp only [takes_pure_iff]
    constructor
    · rintro ⟨rfl, rfl⟩
      exact ⟨none, ⟨rfl, rfl⟩, .none⟩
    · rintro ⟨_, ⟨rfl, rfl⟩, hrel⟩
      cases hrel
      exact ⟨rfl, rfl⟩
  | some n =>
    simp only [takes_bind_pure_iff (hreader n), takes_bind_pure_iff (hreader' n), h]
    constructor
    · rintro ⟨v, ⟨w, hw, hrel⟩, rfl⟩
      exact ⟨some w, ⟨w, hw, rfl⟩, .some hrel⟩
    · rintro ⟨_, ⟨w, hw, rfl⟩, hrel⟩
      cases hrel with
      | some hrel => exact ⟨_, ⟨w, hw, hrel⟩, rfl⟩

/-- What a configuration says, key by key. -/
theorem takes_readLayer_iff {n : Node S} {layer : Layer} {k : Nat} :
    Takes targets (readLayer fmt n) layer k ↔
      ∃ keyed i, ∃ followed : SettingsField → Nat,
        Takes targets (fmt.readObject ["namespace", "canonical-prefix", "exclude", "range-view-type",
          "range-length-member", "types-artifact", "structs-artifact"] n) keyed i ∧
        Takes targets (readUnder keyed "namespace" fmt.readText) layer.space (followed .space) ∧
        Takes targets (readUnder keyed "canonical-prefix" fmt.readText) layer.canonicalLead
          (followed .canonicalLead) ∧
        Takes targets (readUnder keyed "exclude" (fmt.readSequence (some fmt.readText))) layer.exclude
          (followed .exclude) ∧
        Takes targets (readUnder keyed "range-view-type" fmt.readText) layer.rangeViewType
          (followed .rangeViewType) ∧
        Takes targets (readUnder keyed "range-length-member" (fmt.readOptional fmt.readText))
          layer.rangeLengthMember (followed .rangeLengthMember) ∧
        Takes targets (readUnder keyed "types-artifact" (readFrameLayer fmt)) layer.typesFrame
          (followed .typesFrame) ∧
        Takes targets (readUnder keyed "structs-artifact" (readFrameLayer fmt)) layer.recordsFrame
          (followed .recordsFrame) ∧
        k = i + settingsShape.total followed := by
  constructor
  · intro h
    simp only [readLayer, takes_bind_iff (counts_readObject fmt _ n),
      takes_bind_iff (counts_readUnderText fmt _ _), takes_bind_iff (counts_readUnder counts_readTexts _ _),
      takes_bind_iff (counts_readUnder (counts_readOptional fmt (counts_readText fmt)) _ _),
      takes_bind_iff (counts_readUnder counts_readFrameLayer _ _), takes_pure_iff] at h
    obtain ⟨keyed, i, _, hobject, ⟨_, i₁, _, h₁, ⟨_, i₂, _, h₂, ⟨_, i₃, _, h₃, ⟨_, i₄, _, h₄,
      ⟨_, i₅, _, h₅, ⟨_, i₆, _, h₆, ⟨_, i₇, _, h₇, ⟨rfl, rfl⟩, rfl⟩, rfl⟩, rfl⟩, rfl⟩, rfl⟩, rfl⟩, rfl⟩,
      rfl⟩ := h
    exact ⟨keyed, i, SettingsField.rec i₁ i₂ i₃ i₄ i₅ i₆ _, hobject, h₁, h₂, h₃, h₄, h₅, h₆, h₇, rfl⟩
  · rintro ⟨keyed, i, followed, hobject, h₁, h₂, h₃, h₄, h₅, h₆, h₇, rfl⟩
    exact hobject.bind (h₁.bind (h₂.bind (h₃.bind (h₄.bind (h₅.bind (h₆.bind (h₇.bind
      (takes_pure_iff.2 ⟨rfl, rfl⟩))))))))

/-- How each setting is read, `depth` containers above the last that may be entered. -/
def settingsReader (fmt : Format S) (depth : Nat) : settingsShape.Reader S
  | .space => fmt.readText
  | .canonicalLead => fmt.readText
  | .exclude => readNames fmt depth
  | .rangeViewType => fmt.readText
  | .rangeLengthMember => fmt.readOptional fmt.readText
  | .typesFrame => readFrame fmt depth
  | .recordsFrame => readFrame fmt depth

theorem readSettings_eq (fmt : Format S) (depth : Nat) (n : Node S) :
    readSettings fmt (depth + 1) n = (do
      let draft ← fmt.readStruct settingsShape (some (settingsReader fmt depth)) n
      return .ofDraft draft) :=
  rfl

/-- A draft of settings holds what a layer says. -/
structure Layer.Drafts (layer : Layer) (draft : settingsShape.Draft) : Prop where
  space : draft .space = layer.space
  canonicalLead : draft .canonicalLead = layer.canonicalLead
  exclude : Option.Rel (fun list names => names = NameSet.ofList list) layer.exclude (draft .exclude)
  rangeViewType : draft .rangeViewType = layer.rangeViewType
  rangeLengthMember : draft .rangeLengthMember = layer.rangeLengthMember
  typesFrame : Option.Rel FrameLayer.Completes layer.typesFrame (draft .typesFrame)
  recordsFrame : Option.Rel FrameLayer.Completes layer.recordsFrame (draft .recordsFrame)

theorem takes_readUnderNames_iff (depth : Nat) {keyed : List (String × Node S)} {key : String}
    {held : Option NameSet} {k : Nat} :
    Takes targets (readUnder keyed key (readNames fmt (depth + 1))) held k ↔
      ∃ said, Takes targets (readUnder keyed key (fmt.readSequence (some fmt.readText))) said k ∧
        Option.Rel (fun list names => names = NameSet.ofList list) said held :=
  takes_readUnder_of_iff (counts_readNames depth) counts_readTexts fun _ _ _ => takes_readNames_iff

section

include hfmt

theorem takes_readUnderFrame_iff (depth : Nat) {keyed : List (String × Node S)} {key : String}
    {held : Option HeaderFrame} {k : Nat} :
    Takes targets (readUnder keyed key (readFrame fmt (depth + 1))) held k ↔
      ∃ said, Takes targets (readUnder keyed key (readFrameLayer fmt)) said k ∧
        Option.Rel FrameLayer.Completes said held :=
  takes_readUnder_of_iff (counts_readFrame hfmt depth) counts_readFrameLayer
    fun _ _ _ => takes_readFrame_iff hfmt

theorem counts_settingsReader (depth : Nat) (f : settingsShape.Field) (n : Node S) :
    Counts (settingsReader fmt (depth + 1) f n) := by
  cases f with
  | space => exact counts_readText fmt n
  | canonicalLead => exact counts_readText fmt n
  | exclude => exact counts_readNames depth n
  | rangeViewType => exact counts_readText fmt n
  | rangeLengthMember => exact counts_readOptional fmt (counts_readText fmt) n
  | typesFrame => exact counts_readFrame hfmt depth n
  | recordsFrame => exact counts_readFrame hfmt depth n

/-- A draft of settings is read exactly if it holds what is said. -/
theorem takes_settingsDraft_iff {depth : Nat} {n : Node S} {draft : settingsShape.Draft} {k : Nat} :
    Takes targets (fmt.readStruct settingsShape (some (settingsReader fmt (depth + 1))) n) draft k ↔
      ∃ layer, Takes targets (readLayer fmt n) layer k ∧ layer.Drafts draft := by
  have hstruct : Takes targets (fmt.readStruct settingsShape _ n) draft k ↔ _ :=
    takes_readStruct_iff (counts_settingsReader hfmt depth) hfmt
  rw [hstruct]
  simp only [takes_readLayer_iff]
  -- for lists and frames the layer holds what is said, the draft what is made of it
  constructor
  · rintro ⟨keyed, i, followed, hobject, hfields, rfl⟩
    obtain ⟨exclude, h₃, hexclude⟩ := (takes_readUnderNames_iff depth).1 (hfields .exclude)
    obtain ⟨types, h₆, htypes⟩ := (takes_readUnderFrame_iff hfmt depth).1 (hfields .typesFrame)
    obtain ⟨records, h₇, hrecords⟩ := (takes_readUnderFrame_iff hfmt depth).1 (hfields .recordsFrame)
    refine ⟨⟨draft .space, draft .canonicalLead, exclude, draft .rangeViewType, draft .rangeLengthMember,
      types, records⟩, ⟨keyed, i, followed, hobject, hfields .space, hfields .canonicalLead, h₃,
      hfields .rangeViewType, hfields .rangeLengthMember, h₆, h₇, rfl⟩, rfl, rfl, hexclude, rfl, rfl,
      htypes, hrecords⟩
  · rintro ⟨layer, ⟨keyed, i, followed, hobject, h₁, h₂, h₃, h₄, h₅, h₆, h₇, rfl⟩, hdraft⟩
    refine ⟨keyed, i, followed, hobject, fun f => ?_, rfl⟩
    cases f with
    | space => exact hdraft.space ▸ h₁
    | canonicalLead => exact hdraft.canonicalLead ▸ h₂
    | exclude => exact (takes_readUnderNames_iff depth).2 ⟨_, h₃, hdraft.exclude⟩
    | rangeViewType => exact hdraft.rangeViewType ▸ h₄
    | rangeLengthMember => exact hdraft.rangeLengthMember ▸ h₅
    | typesFrame => exact (takes_readUnderFrame_iff hfmt depth).2 ⟨_, h₆, hdraft.typesFrame⟩
    | recordsFrame => exact (takes_readUnderFrame_iff hfmt depth).2 ⟨_, h₇, hdraft.recordsFrame⟩

theorem counts_readSettings (depth : Nat) (n : Node S) : Counts (readSettings fmt (depth + 2) n) := by
  rw [readSettings_eq]
  exact (counts_readStruct (counts_settingsReader hfmt depth) hfmt n).bind fun _ => .pure _

theorem takes_readSettings_iff {depth : Nat} {n : Node S} {s : Settings} {k : Nat} :
    Takes targets (readSettings fmt (depth + 2) n) s k ↔
      ∃ layer draft, Takes targets (readLayer fmt n) layer k ∧ layer.Drafts draft ∧
        s = .ofDraft draft := by
  rw [readSettings_eq, takes_bind_pure_iff (counts_readStruct (counts_settingsReader hfmt depth) hfmt n)]
  simp only [takes_settingsDraft_iff hfmt]
  constructor
  · rintro ⟨draft, ⟨layer, hlayer, hdraft⟩, rfl⟩
    exact ⟨layer, draft, hlayer, hdraft, rfl⟩
  · rintro ⟨layer, draft, hlayer, hdraft, rfl⟩
    exact ⟨draft, ⟨layer, hlayer, hdraft⟩, rfl⟩

end

theorem counts_readLayer (n : Node S) : Counts (readLayer fmt n) := by
  refine (counts_readObject fmt _ n).bind fun keyed => ?_
  refine (counts_readUnderText fmt keyed _).bind fun _ => ?_
  refine (counts_readUnderText fmt keyed _).bind fun _ => ?_
  refine (counts_readUnder counts_readTexts keyed _).bind fun _ => ?_
  refine (counts_readUnderText fmt keyed _).bind fun _ => ?_
  refine (counts_readUnder (counts_readOptional fmt (counts_readText fmt)) keyed _).bind fun _ => ?_
  refine (counts_readUnder counts_readFrameLayer keyed _).bind fun _ => ?_
  exact (counts_readUnder counts_readFrameLayer keyed _).bind fun _ => .pure _

/-- Settings are read from a document exactly if they are those of a draft that holds what it says. -/
theorem Settings.ofDocument_eq_ok_iff (hfmt : fmt.structAsSequence = false) (hlimit : 2 ≤ fmt.limit)
    {doc : Parsed S} {s : Settings} :
    Settings.ofDocument fmt doc = .ok s ↔
      ∃ layer draft, doc.read (readLayer fmt) = .ok layer ∧ layer.Drafts draft ∧ s = .ofDraft draft := by
  have hdepth : fmt.limit = fmt.limit - 2 + 2 := by omega
  rw [Settings.ofDocument, hdepth, read_eq_ok_iff (counts_readSettings hfmt _ doc.root)]
  simp only [read_eq_ok_iff (counts_readLayer doc.root), takes_readSettings_iff hfmt]
  -- both readings follow the same number of references, so they keep to the allowance alike
  constructor
  · rintro ⟨hwhole, k, hk, layer, draft, hlayer, hdraft, rfl⟩
    exact ⟨layer, draft, ⟨hwhole, k, hk, hlayer⟩, hdraft, rfl⟩
  · rintro ⟨layer, draft, ⟨hwhole, k, hk, hlayer⟩, hdraft, rfl⟩
    exact ⟨hwhole, k, hk, layer, draft, hlayer, hdraft, rfl⟩

end

/-! ### Written configurations -/

section

variable {S : Type} (c : Script S)

def FrameLayer.slots (block : FrameLayer) : List (String × Option (Node S)) :=
  [("file-name", block.fileName.map c.textNode), ("header-guard", block.headerGuard.map c.textNode),
    ("preamble", block.preamble.map c.textNode)]

def FrameLayer.write (block : FrameLayer) : Node S := c.objectNode (givenEntries (block.slots c))

def writeTexts (texts : List String) : Node S := .sequence (texts.map c.textNode)

def Layer.slots (layer : Layer) : List (String × Option (Node S)) :=
  [("namespace", layer.space.map c.textNode), ("canonical-prefix", layer.canonicalLead.map c.textNode),
    ("exclude", layer.exclude.map (writeTexts c)), ("range-view-type", layer.rangeViewType.map c.textNode),
    ("range-length-member", layer.rangeLengthMember.map c.optionNode),
    ("types-artifact", layer.typesFrame.map (FrameLayer.write c)),
    ("structs-artifact", layer.recordsFrame.map (FrameLayer.write c))]

/-- What a configuration says, written in the order of its settings. -/
def Layer.write (layer : Layer) : Node S := c.objectNode (givenEntries (layer.slots c))

variable {c} {fmt : Format S} (hc : c.ReadBy fmt)

include hc

theorem readTexts_writeTexts (texts : List String) :
    fmt.readSequence (some fmt.readText) (writeTexts c texts) = pure texts := by
  refine readSequence_of_forall₂ (List.forall₂_map_right_iff.2 ?_)
  exact List.forall₂_same.2 fun text _ => readText_textNode hc text

theorem readFrameLayer_write (block : FrameLayer) : readFrameLayer fmt (block.write c) = pure block := by
  have hobject : fmt.readObject ["file-name", "header-guard", "preamble"] (block.write c) =
      pure (givenEntries (block.slots c)) :=
    readObject_objectNode hc (wellKeyed_givenEntries rfl (by decide))
  have hnodup : ((block.slots c).map (·.1)).Nodup := by
    change ["file-name", "header-guard", "preamble"].Nodup
    decide
  have hunder : ∀ {key : String} {held : Option String}, (key, held.map c.textNode) ∈ block.slots c →
      readUnder (givenEntries (block.slots c)) key fmt.readText = pure held :=
    readUnder_givenEntries (readText_textNode hc) hnodup
  have hname : readUnder _ "file-name" _ = pure block.fileName := hunder (by simp [FrameLayer.slots])
  have hguard : readUnder _ "header-guard" _ = pure block.headerGuard :=
    hunder (by simp [FrameLayer.slots])
  have hpreamble : readUnder _ "preamble" _ = pure block.preamble := hunder (by simp [FrameLayer.slots])
  simp only [readFrameLayer, hobject, hname, hguard, hpreamble, pure_bind]

/-- Everything that a configuration can say is read as it is written. -/
theorem readLayer_write (layer : Layer) : readLayer fmt (layer.write c) = pure layer := by
  have hobject : fmt.readObject ["namespace", "canonical-prefix", "exclude", "range-view-type",
      "range-length-member", "types-artifact", "structs-artifact"] (layer.write c) =
      pure (givenEntries (layer.slots c)) :=
    readObject_objectNode hc (wellKeyed_givenEntries rfl (by decide))
  have hnodup : ((layer.slots c).map (·.1)).Nodup := by
    change ["namespace", "canonical-prefix", "exclude", "range-view-type", "range-length-member",
      "types-artifact", "structs-artifact"].Nodup
    decide
  have hunder : ∀ {V : Type} {reader : Node S → Reading S V} {write : V → Node S},
      (∀ v, reader (write v) = pure v) → ∀ {key : String} {held : Option V},
      (key, held.map write) ∈ layer.slots c →
      readUnder (givenEntries (layer.slots c)) key reader = pure held :=
    fun hread _ _ => readUnder_givenEntries hread hnodup
  have hspace : readUnder _ "namespace" _ = pure layer.space :=
    hunder (readText_textNode hc) (by simp [Layer.slots])
  have hlead : readUnder _ "canonical-prefix" _ = pure layer.canonicalLead :=
    hunder (readText_textNode hc) (by simp [Layer.slots])
  have hexclude : readUnder _ "exclude" _ = pure layer.exclude :=
    hunder (readTexts_writeTexts hc) (by simp [Layer.slots])
  have hview : readUnder _ "range-view-type" _ = pure layer.rangeViewType :=
    hunder (readText_textNode hc) (by simp [Layer.slots])
  have hlength : readUnder _ "range-length-member" _ = pure layer.rangeLengthMember :=
    hunder (readOptional_optionNode hc) (by simp [Layer.slots])
  have htypes : readUnder _ "types-artifact" _ = pure layer.typesFrame :=
    hunder (readFrameLayer_write hc) (by simp [Layer.slots])
  have hrecords : readUnder _ "structs-artifact" _ = pure layer.recordsFrame :=
    hunder (readFrameLayer_write hc) (by simp [Layer.slots])
  simp only [readLayer, hobject, hspace, hlead, hexclude, hview, hlength, htypes, hrecords, pure_bind]

end

end AbiLayout
