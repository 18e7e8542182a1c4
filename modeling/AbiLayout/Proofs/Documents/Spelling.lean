import AbiLayout.Document.Reading
import Mathlib.Data.List.Nodup

/-!
# Spelling

What may stand in a document for a value, said without reading it: single values as a format writes
them, choices by their keys, and structs in the two ways that they can be written, as an object with
entries in any order and as a sequence of fields. Main statement: an object has an entry for each of its
fields but for those that may be left out, none of them twice, in any order.
-/

namespace AbiLayout.Document

variable {S : Type}

/-- How a format writes single values, and whether it lets a struct be a sequence of its fields. -/
structure Script (S : Type) where
  text : String → S
  flag : Bool → S
  natural : Nat → S
  nothing : S
  structsAsSequences : Bool

namespace Script

variable (c : Script S)

def textNode (s : String) : Node S := .scalar (c.text s)

def flagNode (b : Bool) : Node S := .scalar (c.flag b)

def wordNode (w : UInt64) : Node S := .scalar (c.natural w.toNat)

def optionNode : Option String → Node S
  | some s => c.textNode s
  | none => .scalar c.nothing

/-- The alternative of a choice with the given key. -/
def choiceNode (key : String) (content : Node S) : Node S := .mapping [(c.textNode key, content)]

end Script

/-- A sequence whose items are as they should be. -/
def Node.Lists (p : List (Node S) → Prop) (n : Node S) : Prop := ∃ items, n = .sequence items ∧ p items

/-! ### Structs -/

/-- What fills a struct: the trees that stand for the value of each field, and the fields whose value
is understood where they are absent. -/
structure Filling (sh : Shape) (S : Type) where
  accepts : sh.Field → Node S → Prop
  mayOmit : sh.Field → Prop
  optional : ∀ f, mayOmit f → sh.isRequired f = false := by
    intro f h
    cases f <;> first | rfl | cases h

namespace Filling

variable {sh : Shape}

/-- The entries of an object in which some fields are still missing. Each comes at most once, in any
order; keys that name no field may stand between them. -/
inductive Object (c : Script S) (w : Filling sh S) :
    List sh.Field → List (Node S × Node S) → Prop
  | done {missing : List sh.Field} (h : ∀ f ∈ missing, w.mayOmit f) : Object c w missing []
  | field {missing : List sh.Field} {f : sh.Field} {n : Node S} {entries : List (Node S × Node S)}
      (hf : f ∈ missing) (hn : w.accepts f n) (h : Object c w (missing.erase f) entries) :
      Object c w missing ((c.textNode (sh.key f), n) :: entries)
  | foreign {missing : List sh.Field} {key : String} {n : Node S} {entries : List (Node S × Node S)}
      (hkey : ∀ f ∈ sh.fields, sh.key f ≠ key) (hn : n.intact = true)
      (h : Object c w missing entries) : Object c w missing ((c.textNode key, n) :: entries)

/-- The items of a sequence, field by field; only the last fields can be absent. -/
inductive Positions (w : Filling sh S) : List sh.Field → List (Node S) → Prop
  | done {fields : List sh.Field} (h : ∀ f ∈ fields, w.mayOmit f) : Positions w fields []
  | item {f : sh.Field} {fields : List sh.Field} {n : Node S} {items : List (Node S)}
      (hn : w.accepts f n) (h : Positions w fields items) : Positions w (f :: fields) (n :: items)

inductive Spells (c : Script S) (w : Filling sh S) : Node S → Prop
  | object {entries : List (Node S × Node S)} (h : w.Object c sh.fields entries) :
      Spells c w (.mapping entries)
  | sequence {items : List (Node S)} (hc : c.structsAsSequences = true)
      (h : w.Positions sh.fields items) : Spells c w (.sequence items)

end Filling

/-! ### Keys -/

theorem find?_key {α : Type} {key : α → String} {all : List α} (hnodup : (all.map key).Nodup) {a : α}
    (ha : a ∈ all) : (all.find? fun b => key b == key a) = some a := by
  induction all with
  | nil => exact absurd ha List.not_mem_nil
  | cons b rest ih =>
    rw [List.map_cons, List.nodup_cons] at hnodup
    by_cases hkey : key b = key a
    · have hb : b = a := by
        rcases List.mem_cons.1 ha with ha | ha
        · exact ha.symm
        · rw [hkey] at hnodup
          exact absurd (List.mem_map_of_mem ha) hnodup.1
      rw [List.find?_cons_of_pos (by simpa using hkey), hb]
    · have ha' : a ∈ rest := (List.mem_cons.1 ha).resolve_left fun h => hkey (h ▸ rfl)
      rw [List.find?_cons_of_neg (by simpa using hkey)]
      exact ih hnodup.2 ha'

/-- A struct whose fields are all listed and told apart by their keys. -/
class Shape.Lawful (sh : Shape) : Prop where
  mem_fields : ∀ f, f ∈ sh.fields
  nodup_keys : (sh.fields.map sh.key).Nodup

namespace Shape

variable {sh : Shape}

theorem nodup_fields [sh.Lawful] : sh.fields.Nodup := Lawful.nodup_keys.of_map

theorem field?_key [sh.Lawful] (f : sh.Field) : sh.field? (sh.key f) = some f :=
  find?_key Lawful.nodup_keys (Lawful.mem_fields f)

theorem key_of_field? {key : String} {f : sh.Field} (h : sh.field? key = some f) : sh.key f = key := by
  have hkey := List.find?_some h
  simpa using hkey

theorem field?_eq_none_iff {key : String} :
    sh.field? key = none ↔ ∀ f ∈ sh.fields, sh.key f ≠ key := by
  simp [field?]

end Shape

/-- A choice whose alternatives are all listed and told apart by their keys. -/
class Choice.Lawful {T : Type} (ch : Choice T) : Prop where
  mem_all : ∀ t, t ∈ ch.all
  nodup_keys : (ch.all.map ch.key).Nodup

theorem Choice.pick_key {T : Type} {ch : Choice T} [ch.Lawful] (t : T) :
    (ch.pick (ch.key t) : Reading S T) = pure t := by
  unfold Choice.pick
  rw [find?_key Lawful.nodup_keys (Lawful.mem_all t)]

/-! ### Entries of objects -/

namespace Filling

variable {sh : Shape}

/-- An entry that gives a field. -/
def Gives (c : Script S) (w : Filling sh S) (f : sh.Field) (e : Node S × Node S) : Prop :=
  e.1 = c.textNode (sh.key f) ∧ w.accepts f e.2

/-- An entry whose key names no field. -/
def IsForeign (c : Script S) (sh : Shape) (e : Node S × Node S) : Prop :=
  ∃ key, e.1 = c.textNode key ∧ (∀ f ∈ sh.fields, sh.key f ≠ key) ∧ e.2.intact = true

variable {c : Script S} {w : Filling sh S}

/-- The order of the entries makes no difference. -/
theorem Object.perm {entries entries' : List (Node S × Node S)}
    (hperm : entries.Perm entries') {missing : List sh.Field} (h : w.Object c missing entries) :
    w.Object c missing entries' := by
  induction hperm generalizing missing with
  | nil => exact h
  | cons e _ ih =>
    cases h with
    | field hf hn h => exact .field hf hn (ih h)
    | foreign hkey hn h => exact .foreign hkey hn (ih h)
  | swap a b rest =>
    cases h with
    | @field _ f _ _ hf hn h =>
      cases h with
      | @field _ g _ _ hg hm h =>
        -- both are fields: each is still missing when the other has been taken
        rw [List.erase_comm] at h
        by_cases heq : f = g
        · subst heq
          exact .field hf hm (.field hg hn h)
        · have hf' := (List.mem_erase_of_ne heq).2 hf
          exact .field (List.mem_of_mem_erase hg) hm (.field hf' hn h)
      | foreign hkey hm h => exact .foreign hkey hm (.field hf hn h)
    | foreign hkey hn h =>
      cases h with
      | field hg hm h => exact .field hg hm (.foreign hkey hn h)
      | foreign hkey' hm h => exact .foreign hkey' hm (.foreign hkey hn h)
  | trans _ _ ih₁ ih₂ => exact ih₂ (ih₁ h)

theorem object_of_foreign {missing : List sh.Field} (homit : ∀ f ∈ missing, w.mayOmit f)
    {entries : List (Node S × Node S)} (h : ∀ e ∈ entries, IsForeign c sh e) :
    w.Object c missing entries := by
  induction entries with
  | nil => exact .done homit
  | cons e rest ih =>
    rw [List.forall_mem_cons] at h
    obtain ⟨k, n⟩ := e
    obtain ⟨⟨key, rfl, hkey, hn⟩, hrest⟩ := h
    exact .foreign hkey hn (ih hrest)

theorem object_of_forall₂ {kept missing : List sh.Field} (hmissing : missing.Nodup)
    (hkept : kept.Nodup) (hsub : kept ⊆ missing) (homit : ∀ f ∈ missing, f ∉ kept → w.mayOmit f)
    {known foreign : List (Node S × Node S)} (hknown : List.Forall₂ (w.Gives c) kept known)
    (hforeign : ∀ e ∈ foreign, IsForeign c sh e) : w.Object c missing (known ++ foreign) := by
  induction hknown generalizing missing with
  | nil => exact object_of_foreign (fun f hf => homit f hf List.not_mem_nil) hforeign
  | @cons f e rest _ he _ ih =>
    obtain ⟨k, n⟩ := e
    obtain ⟨rfl, hn⟩ := he
    rw [List.nodup_cons] at hkept
    rw [List.cons_subset] at hsub
    have hrest : rest ⊆ missing.erase f := by
      intro g hg
      have hne : g ≠ f := fun heq => hkept.1 (heq ▸ hg)
      exact (List.mem_erase_of_ne hne).2 (hsub.2 hg)
    have homit' : ∀ g ∈ missing.erase f, g ∉ rest → w.mayOmit g := by
      intro g hg hgone
      rw [hmissing.mem_erase_iff] at hg
      exact homit g hg.2 (by simp [hg.1, hgone])
    exact .field hsub.1 hn (ih (hmissing.erase f) hkept.2 hrest homit')

/-- The entries of an object are those of some fields, each of them once, in any order and with foreign
entries among them; the other fields may be left out. -/
theorem object_iff {missing : List sh.Field} (hmissing : missing.Nodup)
    {entries : List (Node S × Node S)} :
    w.Object c missing entries ↔ ∃ (kept : List sh.Field) (known foreign : List (Node S × Node S)),
      kept.Nodup ∧ kept ⊆ missing ∧ (∀ f ∈ missing, f ∉ kept → w.mayOmit f) ∧
      List.Forall₂ (w.Gives c) kept known ∧ (∀ e ∈ foreign, IsForeign c sh e) ∧
      (known ++ foreign).Perm entries := by
  constructor
  · intro h
    induction h with
    | done homit =>
      exact ⟨[], [], [], .nil, List.nil_subset _, fun f hf _ => homit f hf, .nil, by simp, .nil⟩
    | @field missing f n entries hf hn _ ih =>
      obtain ⟨kept, known, foreign, hkept, hsub, homit, hknown, hforeign, hperm⟩ :=
        ih (hmissing.erase f)
      have hfresh : f ∉ kept := fun hmem => hmissing.not_mem_erase (hsub hmem)
      refine ⟨f :: kept, _ :: known, foreign, hkept.cons hfresh, ?_, ?_, .cons ⟨rfl, hn⟩ hknown,
        hforeign, hperm.cons _⟩
      · exact List.cons_subset.2 ⟨hf, fun g hg => List.mem_of_mem_erase (hsub hg)⟩
      · intro g hg hgone
        rw [List.mem_cons, not_or] at hgone
        exact homit g ((List.mem_erase_of_ne hgone.1).2 hg) hgone.2
    | @foreign missing key n entries hkey hn _ ih =>
      obtain ⟨kept, known, foreign, hkept, hsub, homit, hknown, hforeign, hperm⟩ := ih hmissing
      refine ⟨kept, known, (c.textNode key, n) :: foreign, hkept, hsub, homit, hknown, ?_, ?_⟩
      · exact List.forall_mem_cons.2 ⟨⟨key, rfl, hkey, hn⟩, hforeign⟩
      · exact List.perm_middle.trans (hperm.cons _)
  · rintro ⟨kept, known, foreign, hkept, hsub, homit, hknown, hforeign, hperm⟩
    exact (object_of_forall₂ hmissing hkept hsub homit hknown hforeign).perm hperm

/-- An object with all fields in their order. -/
theorem spells_of_forall₂ [sh.Lawful] {entries : List (Node S × Node S)}
    (h : List.Forall₂ (w.Gives c) sh.fields entries) : w.Spells c (.mapping entries) := by
  have hobject := object_of_forall₂ Shape.nodup_fields Shape.nodup_fields (List.Subset.refl _)
    (fun f hf hgone => absurd hf hgone) h (fun e he => absurd he List.not_mem_nil)
  rw [List.append_nil] at hobject
  exact .object hobject

end Filling

end AbiLayout.Document
