import AbiLayout.Json.Tree
import AbiLayout.Proofs.Documents.Spelling
import Mathlib.Data.List.Forall2

/-!
# Reading what is spelled

A format that knows how single values are written reads whatever is spelled with them: choices by
their keys, sequences item by item, and structs in either way of writing them. Reading then neither
fails nor follows a reference, so it is said to be equal to returning the value.
-/

namespace AbiLayout.Document

variable {S : Type}

/-! ### Nesting -/

namespace Node

mutual

/-- How deep sequences and mappings are nested; what a reference stands for does not count. -/
def depth : Node S → Nat
  | .scalar _ => 0
  | .sequence items => depthAll items + 1
  | .mapping entries => depthEntries entries + 1
  | .tagged content => depth content
  | .reference _ => 0
  | .broken => 0

def depthAll : List (Node S) → Nat
  | [] => 0
  | n :: rest => max (depth n) (depthAll rest)

def depthEntries : List (Node S × Node S) → Nat
  | [] => 0
  | (k, v) :: rest => max (max (depth k) (depth v)) (depthEntries rest)

end

theorem depthAll_le_iff {items : List (Node S)} {bound : Nat} :
    depthAll items ≤ bound ↔ ∀ n ∈ items, n.depth ≤ bound := by
  induction items with
  | nil => simp [depthAll]
  | cons n rest ih => rw [depthAll, Nat.max_le, ih, List.forall_mem_cons]

end Node

/-! ### Scripts and formats -/

/-- The format takes single values for what they are written for. -/
structure Script.ReadBy (c : Script S) (fmt : Format S) : Prop where
  text : ∀ s, fmt.text? (c.text s) = some s
  found : ∀ s, fmt.found (c.text s) = .ok (.text s)
  untagged : ∀ s, fmt.isTagged (c.text s) = false
  flag : ∀ b, fmt.flag? (c.flag b) = some b
  word : ∀ w : UInt64, fmt.word? (c.natural w.toNat) = some w
  something : ∀ s, fmt.isNothing (c.text s) = .ok false
  nothing : fmt.isNothing c.nothing = .ok true
  sequences : c.structsAsSequences = true → fmt.structAsSequence = true

section

variable {c : Script S} {fmt : Format S}

theorem followUntagged_scalar (s : S) : followUntagged (.scalar s) = pure (.scalar s) := by
  simp only [followUntagged, follow, pure_bind, Node.untagged]

theorem followUntagged_sequence (items : List (Node S)) :
    followUntagged (.sequence items) = pure (.sequence items) := by
  simp only [followUntagged, follow, pure_bind, Node.untagged]

theorem followUntagged_mapping (entries : List (Node S × Node S)) :
    followUntagged (.mapping entries) = pure (.mapping entries) := by
  simp only [followUntagged, follow, pure_bind, Node.untagged]

/-! ### Single values -/

theorem readTextAs_textNode (hc : c.ReadBy fmt) (expected : Expected) (s : String) :
    fmt.readTextAs expected (c.textNode s) = pure s := by
  simp only [Format.readTextAs, Script.textNode, followUntagged_scalar, pure_bind, hc.text]

theorem readText_textNode (hc : c.ReadBy fmt) (s : String) :
    fmt.readText (c.textNode s) = pure s :=
  readTextAs_textNode hc .text s

theorem readFlag_flagNode (hc : c.ReadBy fmt) (b : Bool) :
    fmt.readFlag (c.flagNode b) = pure b := by
  simp only [Format.readFlag, Script.flagNode, followUntagged_scalar, pure_bind, hc.flag]

theorem readWord_wordNode (hc : c.ReadBy fmt) (w : UInt64) :
    fmt.readWord (c.wordNode w) = pure w := by
  simp only [Format.readWord, Script.wordNode, followUntagged_scalar, pure_bind, hc.word]

theorem readOptional_optionNode (hc : c.ReadBy fmt) (o : Option String) :
    fmt.readOptional fmt.readText (c.optionNode o) = pure o := by
  unfold Format.readOptional
  cases o with
  | none =>
    simp only [Script.optionNode, followUntagged_scalar, pure_bind, hc.nothing, settled, if_true]
  | some s =>
    have htext := readText_textNode hc s
    simp only [Script.textNode] at htext
    simp only [Script.optionNode, Script.textNode, followUntagged_scalar, pure_bind, hc.something,
      settled, Bool.false_eq_true, if_false, htext]

/-! ### Sequences -/

theorem readItems_of_forall₂ {α : Type} {reader : Node S → Reading S α} {as : List α}
    {items : List (Node S)} (h : List.Forall₂ (fun a n => reader n = pure a) as items) :
    readItems reader items = pure as := by
  induction h with
  | nil => rfl
  | cons hread _ ih => simp only [readItems, hread, pure_bind, ih]

theorem readSequence_of_forall₂ {α : Type} {reader : Node S → Reading S α} {as : List α}
    {items : List (Node S)} (h : List.Forall₂ (fun a n => reader n = pure a) as items) :
    fmt.readSequence (some reader) (.sequence items) = pure as := by
  simp only [Format.readSequence, followUntagged_sequence, pure_bind, readItems_of_forall₂ h]

/-! ### Choices -/

theorem readChoice_textNode (hc : c.ReadBy fmt) {T α : Type} (ch : Choice T) [ch.Lawful] (t : T)
    {bare : T → Option α} {a : α} (hbare : bare t = some a)
    (content : Option (T → Node S → Reading S α)) :
    fmt.readChoice ch bare content (c.textNode (ch.key t)) = pure a := by
  simp only [Format.readChoice, Script.textNode, follow, pure_bind, hc.untagged, hc.found,
    Choice.pick_key, hbare, Bool.false_eq_true, if_false]

theorem readChoice_choiceNode (hc : c.ReadBy fmt) {T α : Type} (ch : Choice T) [ch.Lawful] (t : T)
    {bare : T → Option α} (hbare : bare t = none) {content : T → Node S → Reading S α} {n : Node S}
    {a : α} (hread : content t n = pure a) :
    fmt.readChoice ch bare (some content) (c.choiceNode (ch.key t) n) = pure a := by
  simp only [Format.readChoice, Script.choiceNode, follow, pure_bind, Format.readChoiceEntry,
    readTextAs_textNode hc, Choice.pick_key, hbare, hread]

/-! ### Structs -/

/-- A draft that holds, for every field, a value of the right kind or nothing where nothing has to be
held. -/
def Shape.Draft.Meets {sh : Shape} (draft : sh.Draft) (means : (f : sh.Field) → sh.Value f → Prop)
    (absent : sh.Field → Prop) : Prop :=
  ∀ f, (∃ x, draft f = some x ∧ means f x) ∨ (draft f = none ∧ absent f)

theorem Shape.Draft.set_self {sh : Shape} (draft : sh.Draft) (f : sh.Field) (x : sh.Value f) :
    draft.set f x f = some x := by
  simp [Shape.Draft.set]

theorem Shape.Draft.set_of_ne {sh : Shape} (draft : sh.Draft) {f g : sh.Field} (h : f ≠ g)
    (x : sh.Value f) : draft.set f x g = draft g := by
  simp [Shape.Draft.set, h]

/-- A draft for which some fields are still missing, and the others are of the right kind. -/
structure Shape.Draft.Lacks {sh : Shape} (draft : sh.Draft)
    (means : (f : sh.Field) → sh.Value f → Prop) (missing : List sh.Field) : Prop where
  nodup : missing.Nodup
  absent : ∀ f ∈ missing, draft f = none
  held : ∀ f, f ∉ missing → ∃ x, draft f = some x ∧ means f x

namespace Shape.Draft.Lacks

variable {sh : Shape} {draft : sh.Draft} {means : (f : sh.Field) → sh.Value f → Prop}
  {missing : List sh.Field}

theorem blank [sh.Lawful] : sh.blank.Lacks means sh.fields where
  nodup := nodup_fields
  absent _ _ := rfl
  held f hf := absurd (Lawful.mem_fields f) hf

theorem set (h : draft.Lacks means missing) {f : sh.Field} {x : sh.Value f} (hx : means f x) :
    (draft.set f x).Lacks means (missing.erase f) where
  nodup := h.nodup.erase f
  absent g hg := by
    rw [h.nodup.mem_erase_iff] at hg
    rw [draft.set_of_ne hg.1.symm]
    exact h.absent g hg.2
  held g hg := by
    by_cases hfg : f = g
    · subst hfg
      exact ⟨x, draft.set_self f x, hx⟩
    · rw [draft.set_of_ne hfg]
      exact h.held g fun hmem => hg ((h.nodup.mem_erase_iff).2 ⟨fun heq => hfg heq.symm, hmem⟩)

theorem meets (h : draft.Lacks means missing) {absent : sh.Field → Prop}
    (habsent : ∀ f ∈ missing, absent f) : draft.Meets means absent := by
  intro f
  by_cases hf : f ∈ missing
  · exact .inr ⟨h.absent f hf, habsent f hf⟩
  · exact .inl (h.held f hf)

end Shape.Draft.Lacks

variable {sh : Shape} {w : Filling sh S} {reader : sh.Reader S}
  {means : (f : sh.Field) → sh.Value f → Prop}

theorem readEntries_of_object [sh.Lawful] (hc : c.ReadBy fmt)
    (hread : ∀ f n, w.accepts f n → ∃ x, reader f n = pure x ∧ means f x)
    {missing : List sh.Field} {entries : List (Node S × Node S)} (h : w.Object c missing entries)
    {draft : sh.Draft} (hdraft : draft.Lacks means missing) :
    ∃ d : sh.Draft, fmt.readEntries sh reader entries draft = pure d ∧ d.Meets means w.mayOmit := by
  -- along the entries; what the object still misses is what the draft still lacks
  induction h generalizing draft with
  | done homit => exact ⟨draft, rfl, hdraft.meets homit⟩
  | @field _ f n _ hf hn _ ih =>
    obtain ⟨x, hx, hmeans⟩ := hread f n hn
    obtain ⟨d, hd, hmeets⟩ := ih (hdraft.set hmeans)
    refine ⟨d, ?_, hmeets⟩
    have hnone : (draft f).isSome = false := by rw [hdraft.absent f hf, Option.isSome_none]
    simp only [Format.readEntries, readTextAs_textNode hc, pure_bind, Shape.field?_key, hnone,
      Bool.false_eq_true, if_false, hx, hd]
  | foreign hkey hn _ ih =>
    obtain ⟨d, hd, hmeets⟩ := ih hdraft
    refine ⟨d, ?_, hmeets⟩
    simp only [Format.readEntries, readTextAs_textNode hc, pure_bind,
      Shape.field?_eq_none_iff.2 hkey, pass, hn, if_true, hd]

theorem readPositions_nil {fields : List sh.Field} (h : ∀ f ∈ fields, sh.isRequired f = false)
    (position : Nat) (draft : sh.Draft) :
    readPositions sh reader fields [] position draft = pure draft := by
  induction fields generalizing position with
  | nil => simp only [readPositions, List.isEmpty_nil, if_true]
  | cons f rest ih =>
    rw [List.forall_mem_cons] at h
    rw [readPositions, h.1, if_neg Bool.false_ne_true]
    exact ih h.2 (position + 1)

theorem readPositions_of_positions
    (hread : ∀ f n, w.accepts f n → ∃ x, reader f n = pure x ∧ means f x)
    {fields : List sh.Field} {items : List (Node S)} (h : w.Positions fields items)
    (position : Nat) {draft : sh.Draft} (hdraft : draft.Lacks means fields) :
    ∃ d : sh.Draft, readPositions sh reader fields items position draft = pure d ∧
      d.Meets means w.mayOmit := by
  induction h generalizing position draft with
  | done homit =>
    have hoptional := fun f hf => w.optional f (homit f hf)
    exact ⟨draft, readPositions_nil hoptional position draft, hdraft.meets homit⟩
  | @item f _ n _ hn _ ih =>
    obtain ⟨x, hx, hmeans⟩ := hread f n hn
    have hset := hdraft.set hmeans
    rw [List.erase_cons_head] at hset
    obtain ⟨d, hd, hmeets⟩ := ih (position + 1) hset
    refine ⟨d, ?_, hmeets⟩
    simp only [readPositions, hx, pure_bind, hd]

/-- What spells a struct is read, and the draft that goes on holds what is spelled. -/
theorem bind_readStruct [sh.Lawful] {α : Type} (hc : c.ReadBy fmt) {n : Node S} (h : w.Spells c n)
    (means : (f : sh.Field) → sh.Value f → Prop)
    (hread : ∀ f n, w.accepts f n → ∃ x, reader f n = pure x ∧ means f x)
    {finish : sh.Draft → Reading S α} {a : α}
    (hfinish : ∀ d : sh.Draft, d.Meets means w.mayOmit → finish d = pure a) :
    fmt.readStruct sh (some reader) n >>= finish = pure a := by
  cases h with
  | object h =>
    obtain ⟨d, hd, hmeets⟩ := readEntries_of_object hc hread h .blank
    simp only [Format.readStruct, followUntagged_mapping, pure_bind, hd, hfinish d hmeets]
  | sequence hsequences h =>
    obtain ⟨d, hd, hmeets⟩ := readPositions_of_positions hread h 0 .blank
    simp only [Format.readStruct, followUntagged_sequence, pure_bind, hc.sequences hsequences,
      if_true, hd, hfinish d hmeets]

/-! ### Values of drafts -/

theorem required_of_meets {draft : sh.Draft} {f : sh.Field} {v : sh.Value f}
    (h : (∃ x, draft f = some x ∧ x = v) ∨ (draft f = none ∧ False)) :
    (draft.required f : Reading S (sh.Value f)) = pure v := by
  obtain ⟨x, hx, rfl⟩ | ⟨_, hno⟩ := h
  · rw [Shape.Draft.required, hx]
  · exact hno.elim

theorem getD_of_meets {α : Type} {held : Option α} {v default : α}
    (h : (∃ x, held = some x ∧ x = v) ∨ (held = none ∧ v = default)) : held.getD default = v := by
  obtain ⟨x, hx, rfl⟩ | ⟨hnone, rfl⟩ := h
  · rw [hx, Option.getD_some]
  · rw [hnone, Option.getD_none]

theorem getD_getD_of_meets {α : Type} {held : Option (Option α)} {v default : α}
    (h : (∃ o, held = some o ∧ o.getD default = v) ∨ (held = none ∧ v = default)) :
    (held.getD none).getD default = v := by
  obtain ⟨o, ho, rfl⟩ | ⟨hnone, rfl⟩ := h
  · rw [ho, Option.getD_some]
  · rw [hnone, Option.getD_none, Option.getD_none]

/-! ### Documents -/

theorem read_of_eq_pure {α : Type} {doc : Parsed S} {reader : Node S → Reading S α} {a : α}
    (hwhole : doc.isWhole = true) (h : reader doc.root = pure a) : doc.read reader = .ok a := by
  rw [Parsed.read, h, hwhole]
  rfl

end

end AbiLayout.Document

/-! ### JSON -/

namespace AbiLayout.Json

open Document

def script : Script Scalar where
  text := .text
  flag := .boolean
  natural n := .integer n
  nothing := .null
  structsAsSequences := true

theorem word?_integer (w : UInt64) : Scalar.word? (.integer w.toNat) = some w := by
  have hlt : w.toNat < UInt64.size := w.toNat_lt
  simp [Scalar.word?, hlt]

theorem script_readBy_format : script.ReadBy format where
  text _ := rfl
  found _ := rfl
  untagged _ := rfl
  flag _ := rfl
  word := word?_integer
  something _ := rfl
  nothing := rfl
  sequences _ := rfl

end AbiLayout.Json
