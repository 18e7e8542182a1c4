import AbiLayout.Proofs.Documents.YamlScript
import AbiLayout.Proofs.Emission
import AbiLayout.Proofs.Settings.Layers
import AbiLayout.Run
import Mathlib.Data.List.Sort

/-!
# Layers of settings

The settings of a run come in three layers: defaults, a configuration, and the command line. Main
statement: the settings of a run are, setting by setting, what the uppermost layer gives that mentions it,
except that exclusions of the command line are added to those below; and the frame of a header is given as
a whole.
-/

namespace AbiLayout

open Document CommandLine
open Cpp (bind_eq_ok_iff map_eq_ok_iff mapError_eq_ok_iff toOption_eq_some_iff)
open Files (Disk)

/-- The layer that mentions nothing. -/
def Layer.silent : Layer := ⟨none, none, none, none, none, none, none⟩

/-- The layer of a run's configuration: what its file says, or nothing where no file is named. -/
inductive Layer.SaidBy (disk : Disk) : Option String → Layer → Prop
  | absent : SaidBy disk none silent
  | file {path text : String} {layer : Layer} (htext : disk.readText path = .ok text)
      (hlayer : (Yaml.readDocument text).read (readLayer Yaml.format) = .ok layer) :
      SaidBy disk (some path) layer

/-- Every frame that is given has its name and its guard. -/
def Layer.IsComplete (layer : Layer) : Prop :=
  ∀ block, layer.typesFrame = some block ∨ layer.recordsFrame = some block →
    block.fileName.isSome = true ∧ block.headerGuard.isSome = true

/-- The frame is the default one, or else the one that is given instead. -/
structure HeaderFrame.Replaces (frame default : HeaderFrame) (block : Option FrameLayer) : Prop where
  absent : block = none → frame = default
  given : ∀ b, block = some b → b.Completes frame

/-- The settings are those of the command line over those of the layer over the defaults. -/
structure Settings.Combines (s : Settings) (layer : Layer) (flags : Settings.Overrides) : Prop where
  space : s.space = flags.space.getD (layer.space.getD standard.space)
  canonicalLead : s.canonicalLead =
    flags.canonicalLead.getD (layer.canonicalLead.getD standard.canonicalLead)
  exclude : ∀ name, name ∈ s.exclude.names ↔
    name ∈ flags.exclude ∨ name ∈ layer.exclude.getD handMaintained
  rangeViewType : s.rangeViewType = layer.rangeViewType.getD standard.rangeViewType
  rangeLengthMember : s.rangeLengthMember = layer.rangeLengthMember.getD standard.rangeLengthMember
  typesFrame : s.typesFrame.Replaces standard.typesFrame layer.typesFrame
  recordsFrame : s.recordsFrame.Replaces standard.recordsFrame layer.recordsFrame

/-! ### How layers combine -/

theorem NameSet.eq_of_mem_iff {a b : NameSet} (h : ∀ name, name ∈ a.names ↔ name ∈ b.names) : a = b := by
  have hnames := a.ascending.eq_of_mem_iff b.ascending h
  cases a
  cases b
  cases hnames
  rfl

theorem NameSet.mem_ofList {names : List String} {name : String} :
    name ∈ (NameSet.ofList names).names ↔ name ∈ names := by
  rw [ofList, mem_insertAll]
  exact or_iff_left List.not_mem_nil

theorem HeaderFrame.replaces_iff {frame default : HeaderFrame} {block : Option FrameLayer} :
    frame.Replaces default block ↔
      ∃ given, Option.Rel FrameLayer.Completes block given ∧ frame = given.getD default := by
  constructor
  · intro h
    cases hblock : block with
    | none => exact ⟨none, .none, h.absent hblock⟩
    | some b => exact ⟨some frame, .some (h.given b hblock), rfl⟩
  · rintro ⟨given, hrel, rfl⟩
    cases hrel with
    | none => exact ⟨fun _ => rfl, fun b hb => absurd hb (Option.some_ne_none b).symm⟩
    | some hcompletes =>
      refine ⟨fun h => absurd h (Option.some_ne_none _), fun b hb => ?_⟩
      cases hb
      exact hcompletes

theorem rel_none_iff {α β : Type} {rel : α → β → Prop} {held : Option β} :
    Option.Rel rel none held ↔ held = none := by
  constructor
  · intro h
    cases h
    rfl
  · rintro rfl
    exact .none

/-- What is made of each value can be made of the default before it is put in. -/
theorem getD_of_rel {α β : Type} {f : α → β} {said : Option α} {held : Option β}
    (h : Option.Rel (fun a b => b = f a) said held) (default : α) :
    held.getD (f default) = f (said.getD default) := by
  cases h with
  | none => rfl
  | some h => exact h

/-- The draft that holds what a layer says, with the frames that are made of its blocks. -/
def Layer.draft (layer : Layer) (types records : Option HeaderFrame) : settingsShape.Draft
  | .space => layer.space
  | .canonicalLead => layer.canonicalLead
  | .exclude => layer.exclude.map .ofList
  | .rangeViewType => layer.rangeViewType
  | .rangeLengthMember => layer.rangeLengthMember
  | .typesFrame => types
  | .recordsFrame => records

theorem Layer.drafts_draft {layer : Layer} {types records : Option HeaderFrame}
    (htypes : Option.Rel FrameLayer.Completes layer.typesFrame types)
    (hrecords : Option.Rel FrameLayer.Completes layer.recordsFrame records) :
    layer.Drafts (layer.draft types records) := by
  refine ⟨rfl, rfl, ?_, rfl, rfl, htypes, hrecords⟩
  change Option.Rel _ layer.exclude (layer.exclude.map NameSet.ofList)
  cases layer.exclude with
  | none => exact .none
  | some list => exact .some rfl

theorem Settings.override_nothing (s : Settings) : s.override ⟨none, none, []⟩ = s := rfl

/-- The exclusions of a draft under the command line are those of both. -/
theorem Layer.Drafts.mem_exclude {layer : Layer} {draft : settingsShape.Draft} (h : layer.Drafts draft)
    (flags : Settings.Overrides) (name : String) :
    name ∈ ((Settings.ofDraft draft).override flags).exclude.names ↔
      name ∈ flags.exclude ∨ name ∈ layer.exclude.getD handMaintained := by
  have hnames : ((draft .exclude).getD Settings.standard.exclude : NameSet) = _ :=
    getD_of_rel h.exclude handMaintained
  rw [Settings.override, NameSet.mem_insertAll, Settings.ofDraft, hnames, NameSet.mem_ofList]

/-- Settings combine the layers exactly if they are those of a draft under the command line. -/
theorem Settings.combines_iff_drafts {s : Settings} {layer : Layer} {flags : Settings.Overrides} :
    s.Combines layer flags ↔ ∃ draft, layer.Drafts draft ∧ s = (Settings.ofDraft draft).override flags := by
  constructor
  · intro h
    obtain ⟨types, htypes, htypesFrame⟩ := HeaderFrame.replaces_iff.1 h.typesFrame
    obtain ⟨records, hrecords, hrecordsFrame⟩ := HeaderFrame.replaces_iff.1 h.recordsFrame
    have hdraft := Layer.drafts_draft htypes hrecords
    -- the exclusions are given by their members, which settle the set
    have hexclude : s.exclude = ((Settings.ofDraft (layer.draft types records)).override flags).exclude :=
      NameSet.eq_of_mem_iff fun name => (h.exclude name).trans (hdraft.mem_exclude flags name).symm
    refine ⟨_, hdraft, ?_⟩
    obtain ⟨space, lead, exclude, view, length, typesFrame, recordsFrame⟩ := s
    obtain ⟨rfl, rfl, -, rfl, rfl, -, -⟩ := h
    obtain rfl := hexclude
    obtain rfl := htypesFrame
    obtain rfl := hrecordsFrame
    rfl
  · rintro ⟨draft, hdraft, rfl⟩
    refine ⟨?_, ?_, hdraft.mem_exclude flags, ?_, ?_, ?_, ?_⟩
    · rw [← hdraft.space]
      rfl
    · rw [← hdraft.canonicalLead]
      rfl
    · rw [← hdraft.rangeViewType]
      rfl
    · rw [← hdraft.rangeLengthMember]
      rfl
    · exact HeaderFrame.replaces_iff.2 ⟨_, hdraft.typesFrame, rfl⟩
    · exact HeaderFrame.replaces_iff.2 ⟨_, hdraft.recordsFrame, rfl⟩

/-- A configuration that says nothing leaves the standard settings. -/
theorem Layer.drafts_silent_iff {draft : settingsShape.Draft} :
    Layer.silent.Drafts draft ↔ draft = settingsShape.blank := by
  constructor
  · rintro ⟨h₁, h₂, h₃, h₄, h₅, h₆, h₇⟩
    funext f
    cases f with
    | space => exact h₁
    | canonicalLead => exact h₂
    | exclude => exact rel_none_iff.1 h₃
    | rangeViewType => exact h₄
    | rangeLengthMember => exact h₅
    | typesFrame => exact rel_none_iff.1 h₆
    | recordsFrame => exact rel_none_iff.1 h₇
  · rintro rfl
    exact ⟨rfl, rfl, .none, rfl, rfl, .none, .none⟩

/-! ### Which frames can be made -/

theorem FrameLayer.exists_completes_iff {block : FrameLayer} :
    (∃ frame, block.Completes frame) ↔
      block.fileName.isSome = true ∧ block.headerGuard.isSome = true := by
  simp only [Option.isSome_iff_exists]
  constructor
  · rintro ⟨frame, h⟩
    exact ⟨⟨_, h.fileName⟩, ⟨_, h.headerGuard⟩⟩
  · rintro ⟨⟨fileName, hname⟩, ⟨headerGuard, hguard⟩⟩
    exact ⟨⟨fileName, headerGuard, block.preamble.getD ""⟩, hname, hguard, rfl⟩

theorem exists_rel_iff {α β : Type} {rel : α → β → Prop} {said : Option α} :
    (∃ held, Option.Rel rel said held) ↔ ∀ a, said = some a → ∃ b, rel a b := by
  constructor
  · rintro ⟨held, h⟩ a rfl
    cases h with
    | some h => exact ⟨_, h⟩
  · intro h
    cases said with
    | none => exact ⟨none, .none⟩
    | some a =>
      obtain ⟨b, hb⟩ := h a rfl
      exact ⟨some b, .some hb⟩

theorem Layer.exists_drafts_iff {layer : Layer} : (∃ draft, layer.Drafts draft) ↔ layer.IsComplete := by
  have hblocks : layer.IsComplete ↔
      (∃ types, Option.Rel FrameLayer.Completes layer.typesFrame types) ∧
        ∃ records, Option.Rel FrameLayer.Completes layer.recordsFrame records := by
    simp only [exists_rel_iff, FrameLayer.exists_completes_iff]
    constructor
    · intro h
      exact ⟨fun block hblock => h block (.inl hblock), fun block hblock => h block (.inr hblock)⟩
    · rintro ⟨htypes, hrecords⟩ block (hblock | hblock)
      · exact htypes block hblock
      · exact hrecords block hblock
  rw [hblocks]
  constructor
  · rintro ⟨draft, h⟩
    exact ⟨⟨_, h.typesFrame⟩, ⟨_, h.recordsFrame⟩⟩
  · rintro ⟨⟨types, htypes⟩, ⟨records, hrecords⟩⟩
    exact ⟨_, drafts_draft htypes hrecords⟩

/-! ### Runs -/

/-- The only layer of its kind can be combined exactly if every frame can be made. -/
theorem Layer.exists_combines_iff {layer : Layer} {kind : Layer → Prop} (h : kind layer)
    (hunique : ∀ other, kind other → layer = other) (flags : Settings.Overrides) :
    (∃ s : Settings, ∃ other, kind other ∧ s.Combines other flags) ↔ layer.IsComplete := by
  simp only [Settings.combines_iff_drafts, ← exists_drafts_iff]
  constructor
  · rintro ⟨s, other, hother, draft, hdraft, rfl⟩
    rw [hunique other hother]
    exact ⟨draft, hdraft⟩
  · rintro ⟨draft, hdraft⟩
    exact ⟨_, layer, h, draft, hdraft, rfl⟩

/-- The settings of a document under a command line combine what it says with both. -/
theorem override_ofDocument_eq_ok_iff (doc : Parsed Yaml.Scalar) (flags : Settings.Overrides)
    (s : Settings) :
    (Settings.ofDocument Yaml.format doc).map (·.override flags) = .ok s ↔
      ∃ layer, doc.read (readLayer Yaml.format) = .ok layer ∧ s.Combines layer flags := by
  have hdocument : ∀ base : Settings, Settings.ofDocument Yaml.format doc = .ok base ↔ _ :=
    fun _ => Settings.ofDocument_eq_ok_iff rfl (by decide)
  simp only [map_eq_ok_iff, hdocument, Settings.combines_iff_drafts]
  constructor
  · rintro ⟨_, ⟨layer, draft, hlayer, hdraft, rfl⟩, rfl⟩
    exact ⟨layer, hlayer, draft, hdraft, rfl⟩
  · rintro ⟨layer, hlayer, draft, hdraft, rfl⟩
    exact ⟨_, ⟨layer, draft, hlayer, hdraft, rfl⟩, rfl⟩

theorem load_eq_ok_iff {disk : Disk} {path : String} {base : Settings} :
    Settings.load disk path = .ok base ↔ ∃ text, disk.readText path = .ok text ∧
      Settings.ofDocument Yaml.format (Yaml.readDocument text) = .ok base := by
  simp only [Settings.load, bind_eq_ok_iff, Settings.ofText, mapError_eq_ok_iff]

theorem Settings.combines_silent_iff {s : Settings} {flags : Settings.Overrides} :
    s.Combines .silent flags ↔ s = Settings.standard.override flags := by
  simp only [combines_iff_drafts, Layer.drafts_silent_iff, exists_eq_left]
  rfl

/-- The settings of a run combine what its configuration says with both. -/
theorem obtainSettings_eq_ok_iff (disk : Disk) (a : SharedOptions) (s : Settings) :
    obtainSettings disk a = .ok s ↔
      ∃ layer, Layer.SaidBy disk a.config layer ∧ s.Combines layer a.overrides := by
  rw [obtainSettings]
  cases a.config with
  | none =>
    rw [Except.ok.injEq, eq_comm, ← Settings.combines_silent_iff]
    constructor
    · intro h
      exact ⟨_, .absent, h⟩
    · rintro ⟨_, ⟨⟩, h⟩
      exact h
  | some path =>
    simp only [map_eq_ok_iff, mapError_eq_ok_iff, load_eq_ok_iff]
    constructor
    · rintro ⟨base, ⟨text, htext, hbase⟩, hs⟩
      have hmap : (Settings.ofDocument Yaml.format _).map (·.override a.overrides) = .ok s :=
        map_eq_ok_iff.2 ⟨base, hbase, hs⟩
      obtain ⟨layer, hlayer, h⟩ := (override_ofDocument_eq_ok_iff _ a.overrides s).1 hmap
      exact ⟨layer, .file htext hlayer, h⟩
    · rintro ⟨layer, hsaid, h⟩
      cases hsaid with
      | file htext hlayer =>
        have hmap := (override_ofDocument_eq_ok_iff _ a.overrides s).2 ⟨layer, hlayer, h⟩
        obtain ⟨base, hbase, hs⟩ := map_eq_ok_iff.1 hmap
        exact ⟨base, ⟨_, htext, hbase⟩, hs⟩

theorem Layer.SaidBy.unique {disk : Disk} {config : Option String} {layer other : Layer}
    (h : layer.SaidBy disk config) (h' : other.SaidBy disk config) : layer = other := by
  cases h with
  | absent =>
    cases h'
    rfl
  | file htext hlayer =>
    cases h' with
    | file htext' hlayer' =>
      cases htext.symm.trans htext'
      cases hlayer.symm.trans hlayer'
      rfl

/-- Under every command line, settings combine what a document says, and those of a run what its
configuration says, which is nothing where none is named; they can be combined exactly if every frame that
is given has its name and its guard. A document can say whatever a layer says. -/
theorem obtainSettings_combines_layers :
    (∀ (doc : Parsed Yaml.Scalar) (flags : Settings.Overrides) (s : Settings),
      (Settings.ofDocument Yaml.format doc).map (·.override flags) = .ok s ↔
        ∃ layer, doc.read (readLayer Yaml.format) = .ok layer ∧ s.Combines layer flags) ∧
    (∀ (doc : Parsed Yaml.Scalar) (layer : Layer), doc.read (readLayer Yaml.format) = .ok layer →
      ((∃ s, Settings.ofDocument Yaml.format doc = .ok s) ↔ layer.IsComplete)) ∧
    (∀ layer : Layer, ({ root := layer.write Yaml.script, isWhole := true } : Parsed Yaml.Scalar).read
      (readLayer Yaml.format) = .ok layer) ∧
    (∀ (disk : Disk) (a : SharedOptions) (s : Settings), obtainSettings disk a = .ok s ↔
      ∃ layer, Layer.SaidBy disk a.config layer ∧ s.Combines layer a.overrides) ∧
    ∀ (disk : Disk) (a : SharedOptions) (layer : Layer), Layer.SaidBy disk a.config layer →
      ((∃ s, obtainSettings disk a = .ok s) ↔ layer.IsComplete) := by
  refine ⟨override_ofDocument_eq_ok_iff, ?_, ?_, obtainSettings_eq_ok_iff, ?_⟩
  · intro doc layer hlayer
    have hunique : ∀ other, doc.read (readLayer Yaml.format) = .ok other → layer = other :=
      fun other hother => Except.ok.inj (hlayer.symm.trans hother)
    have hexists := Layer.exists_combines_iff hlayer hunique ⟨none, none, []⟩
    simp only [← override_ofDocument_eq_ok_iff, map_eq_ok_iff, Settings.override_nothing] at hexists
    simpa using hexists
  · exact fun layer => read_of_eq_pure rfl (readLayer_write Yaml.script_readBy_format layer)
  · intro disk a layer hlayer
    simp only [obtainSettings_eq_ok_iff]
    exact Layer.exists_combines_iff hlayer (fun other hother => hlayer.unique hother) a.overrides

/-- A configuration that gives some settings, and a frame without its preamble. -/
def someText : String :=
  "namespace: kernel\nexclude: [handle]\nrange-length-member: _size\n" ++
    "types-artifact:\n  file-name: t.hpp\n  header-guard: T_HPP\n"

def someLayer : Layer :=
  ⟨some "kernel", none, some ["handle"], none, some (some "_size"), some ⟨some "t.hpp", some "T_HPP", none⟩,
    none⟩

/-- A configuration that gives a frame without its guard. -/
def unguardedText : String := "structs-artifact:\n  file-name: s.hpp\n"

def unguardedLayer : Layer := ⟨none, none, none, none, none, none, some ⟨some "s.hpp", none, none⟩⟩

def layeredDisk : Disk where
  start := ["home"]
  root := .directory [("home", .directory [("some.yaml", .file someText.toUTF8),
    ("unguarded.yaml", .file unguardedText.toUTF8)])]

def layeredOptions (config : String) : SharedOptions :=
  ⟨"abi.json", some config, ⟨none, some "k_", ["fd", "fd"]⟩, false⟩

theorem obtainSettings_combines_layers_some :
    (∃ s, obtainSettings layeredDisk (layeredOptions "some.yaml") = .ok s ∧
      s.Combines someLayer ⟨none, some "k_", ["fd", "fd"]⟩) ∧
    ¬ ∃ s, obtainSettings layeredDisk (layeredOptions "unguarded.yaml") = .ok s := by
  have hsome : someLayer.SaidBy layeredDisk (layeredOptions "some.yaml").config := by
    have htext : (layeredDisk.readText "some.yaml").toOption = some someText := by decide +kernel
    have hlayer : ((Yaml.readDocument someText).read (readLayer Yaml.format)).toOption = some someLayer := by
      decide +kernel
    exact .file ((toOption_eq_some_iff _ _).1 htext) ((toOption_eq_some_iff _ _).1 hlayer)
  have hunguarded : unguardedLayer.SaidBy layeredDisk (layeredOptions "unguarded.yaml").config := by
    have htext : (layeredDisk.readText "unguarded.yaml").toOption = some unguardedText := by
      decide +kernel
    have hlayer : ((Yaml.readDocument unguardedText).read (readLayer Yaml.format)).toOption =
        some unguardedLayer := by
      decide +kernel
    exact .file ((toOption_eq_some_iff _ _).1 htext) ((toOption_eq_some_iff _ _).1 hlayer)
  obtain ⟨-, -, -, hcombines, hcomplete⟩ := obtainSettings_combines_layers
  constructor
  · have hframes : someLayer.IsComplete := by
      rintro block (hblock | hblock)
      · cases hblock
        exact ⟨rfl, rfl⟩
      · cases hblock
    obtain ⟨s, hs⟩ := (hcomplete _ _ _ hsome).2 hframes
    obtain ⟨layer, hlayer, h⟩ := (hcombines _ _ s).1 hs
    cases hsome.unique hlayer
    exact ⟨s, hs, h⟩
  · intro h
    have hframes := (hcomplete _ _ _ hunguarded).1 h
    have hguard := (hframes _ (.inr rfl)).2
    cases hguard

end AbiLayout
