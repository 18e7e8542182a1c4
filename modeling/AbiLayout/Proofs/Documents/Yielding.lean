import AbiLayout.Proofs.Documents.Accepting

/-!
# What has been read

What a tree must have looked like if reading it has come to an end: single values as the format writes
them, choices by their keys, and structs in one of the two ways that they can be written. The trees are
those without references and tags, so that what stands in a place is what is read there.
-/

namespace AbiLayout.Document

variable {S : Type}

namespace Node

mutual

/-- Whether a tree has no references and no tags. -/
def isDirect : Node S → Bool
  | .scalar _ => true
  | .sequence items => isDirectAll items
  | .mapping entries => isDirectEntries entries
  | .tagged _ => false
  | .reference _ => false
  | .broken => true

def isDirectAll : List (Node S) → Bool
  | [] => true
  | n :: rest => isDirect n && isDirectAll rest

def isDirectEntries : List (Node S × Node S) → Bool
  | [] => true
  | (k, v) :: rest => isDirect k && isDirect v && isDirectEntries rest

end

theorem isDirectAll_cons {n : Node S} {rest : List (Node S)} (h : isDirectAll (n :: rest) = true) :
    n.isDirect = true ∧ isDirectAll rest = true := by
  rwa [isDirectAll, Bool.and_eq_true] at h

theorem isDirectEntries_cons {k v : Node S} {rest : List (Node S × Node S)}
    (h : isDirectEntries ((k, v) :: rest) = true) :
    k.isDirect = true ∧ v.isDirect = true ∧ isDirectEntries rest = true := by
  rwa [isDirectEntries, Bool.and_eq_true, Bool.and_eq_true, and_assoc] at h

end Node

theorem follow_of_isDirect {n : Node S} (h : n.isDirect = true) : follow n = pure n := by
  cases n with
  | reference number => cases h
  | _ => rfl

theorem followUntagged_of_isDirect {n : Node S} (h : n.isDirect = true) :
    followUntagged n = pure n := by
  have huntagged : n.untagged = n := by
    cases n with
    | tagged content => cases h
    | _ => rfl
  simp only [followUntagged, follow_of_isDirect h, pure_bind, huntagged]

/-! ### Outcomes -/

/-- The value can come out of the reading, whatever references stand for. -/
def Reading.Yields {α : Type} (x : Reading S α) (a : α) : Prop :=
  ∃ targets allowance left, (x.run targets).run allowance = .ok (a, left)

open Reading (Yields)

namespace Reading.Yields

variable {α β : Type} {x : Reading S α} {a b : α}

theorem of_pure (h : Yields (pure a : Reading S α) b) : b = a := by
  obtain ⟨_, _, _, h⟩ := h
  cases h
  rfl

theorem of_throw {fault : Fault} (h : Yields (throw fault : Reading S α) a) : False := by
  obtain ⟨_, _, _, h⟩ := h
  cases h

theorem of_bind {f : α → Reading S β} {b : β} (h : Yields (x >>= f) b) :
    ∃ a, Yields x a ∧ Yields (f a) b := by
  obtain ⟨targets, allowance, left, h⟩ := h
  cases hx : (x.run targets).run allowance with
  | error fault =>
    have hbind : ((x >>= f).run targets).run allowance = .error fault := by
      simp only [ReaderT.run_bind, StateT.run_bind, hx]
      rfl
    rw [hbind] at h
    cases h
  | ok first =>
    have hbind : ((x >>= f).run targets).run allowance =
        ((f first.1).run targets).run first.2 := by
      simp only [ReaderT.run_bind, StateT.run_bind, hx]
      rfl
    exact ⟨first.1, ⟨targets, allowance, first.2, hx⟩, targets, first.2, left, hbind ▸ h⟩

theorem of_settled {outcome : Except Fault α} (h : Yields (settled outcome : Reading S α) a) :
    outcome = .ok a := by
  cases outcome with
  | ok b => rw [h.of_pure]
  | error fault => exact h.of_throw.elim

theorem of_required {sh : Shape} {draft : sh.Draft} {f : sh.Field} {v : sh.Value f}
    (h : Yields (draft.required f : Reading S (sh.Value f)) v) : draft f = some v := by
  unfold Shape.Draft.required at h
  split at h
  · next value hvalue => rw [hvalue, h.of_pure]
  · exact h.of_throw.elim

end Reading.Yields

theorem yields_of_read {α : Type} {doc : Parsed S} {reader : Node S → Reading S α} {a : α}
    (h : doc.read reader = .ok a) : Yields (reader doc.root) a ∧ doc.isWhole = true := by
  rw [Parsed.read, StateT.run'_eq] at h
  cases hrun : ((reader doc.root).run doc.targets).run doc.allowance with
  | error fault =>
    rw [hrun] at h
    cases h
  | ok outcome =>
    rw [hrun] at h
    change (if doc.isWhole = true then Except.ok outcome.1 else Except.error _) = Except.ok a at h
    split at h
    · next hwhole =>
      cases h
      exact ⟨⟨doc.targets, doc.allowance, outcome.2, hrun⟩, hwhole⟩
    · cases h

/-- The format takes single values for nothing but what they are written for, and no scalar stands for
a container. -/
structure Script.Covers (c : Script S) (fmt : Format S) : Prop where
  text : ∀ s x, fmt.text? s = some x → s = c.text x
  found : ∀ s x, fmt.found s = .ok (.text x) → s = c.text x
  flag : ∀ s b, fmt.flag? s = some b → s = c.flag b
  word : ∀ s w, fmt.word? s = some w → s = c.natural w.toNat
  nothing : ∀ s, fmt.isNothing s = .ok true → s = c.nothing
  solid : ∀ s, fmt.isHollow s = false
  sequences : fmt.structAsSequence = true → c.structsAsSequences = true

section

variable {c : Script S} {fmt : Format S}

/-! ### Single values -/

theorem textNode_of_readTextAs (hc : c.Covers fmt) {expected : Expected} {n : Node S}
    (hn : n.isDirect = true) {s : String} (h : Yields (fmt.readTextAs expected n) s) :
    n = c.textNode s := by
  rw [Format.readTextAs, followUntagged_of_isDirect hn, pure_bind] at h
  cases n with
  | scalar x =>
    dsimp only at h
    split at h
    · next text htext => rw [hc.text x text htext, h.of_pure, Script.textNode]
    · exact h.of_throw.elim
  | _ => exact h.of_throw.elim

theorem textNode_of_readText (hc : c.Covers fmt) {n : Node S} (hn : n.isDirect = true) {s : String}
    (h : Yields (fmt.readText n) s) : n = c.textNode s :=
  textNode_of_readTextAs hc hn h

theorem flagNode_of_readFlag (hc : c.Covers fmt) {n : Node S} (hn : n.isDirect = true) {b : Bool}
    (h : Yields (fmt.readFlag n) b) : n = c.flagNode b := by
  rw [Format.readFlag, followUntagged_of_isDirect hn, pure_bind] at h
  cases n with
  | scalar x =>
    dsimp only at h
    split at h
    · next flag hflag => rw [hc.flag x flag hflag, h.of_pure, Script.flagNode]
    · exact h.of_throw.elim
  | _ => exact h.of_throw.elim

theorem wordNode_of_readWord (hc : c.Covers fmt) {n : Node S} (hn : n.isDirect = true) {w : UInt64}
    (h : Yields (fmt.readWord n) w) : n = c.wordNode w := by
  rw [Format.readWord, followUntagged_of_isDirect hn, pure_bind] at h
  cases n with
  | scalar x =>
    dsimp only at h
    split at h
    · next word hword => rw [hc.word x word hword, h.of_pure, Script.wordNode]
    · exact h.of_throw.elim
    · exact h.of_throw.elim
  | _ => exact h.of_throw.elim

theorem optionNode_of_readOptional (hc : c.Covers fmt) {n : Node S} (hn : n.isDirect = true)
    {o : Option String} (h : Yields (fmt.readOptional fmt.readText n) o) : n = c.optionNode o := by
  rw [Format.readOptional, followUntagged_of_isDirect hn, pure_bind] at h
  have hread : Yields (do return some (← fmt.readText n)) o → n = c.optionNode o := by
    intro h
    obtain ⟨s, hs, h⟩ := h.of_bind
    rw [h.of_pure, textNode_of_readText hc hn hs, Script.optionNode]
  cases n with
  | scalar s =>
    obtain ⟨isNothing, hnothing, h⟩ := h.of_bind
    cases isNothing with
    | true => rw [h.of_pure, hc.nothing s hnothing.of_settled, Script.optionNode]
    | false => exact hread h
  | _ => exact hread h

/-! ### Sequences -/

theorem forall₂_of_readItems {α : Type} {reader : Node S → Reading S α} {items : List (Node S)}
    (hitems : Node.isDirectAll items = true) {as : List α} (h : Yields (readItems reader items) as) :
    List.Forall₂ (fun a n => n.isDirect = true ∧ Yields (reader n) a) as items := by
  induction items generalizing as with
  | nil =>
    rw [h.of_pure]
    exact .nil
  | cons n rest ih =>
    obtain ⟨hn, hrest⟩ := Node.isDirectAll_cons hitems
    obtain ⟨a, ha, h⟩ := h.of_bind
    obtain ⟨others, hothers, h⟩ := h.of_bind
    rw [h.of_pure]
    exact .cons ⟨hn, ha⟩ (ih hrest hothers)

/-- A sequence has been read item by item. -/
theorem lists_of_readSequence (hc : c.Covers fmt) {α : Type}
    {inner : Option (Node S → Reading S α)} {n : Node S} (hn : n.isDirect = true) {as : List α}
    (h : Yields (fmt.readSequence inner n) as) {p : α → Node S → Prop}
    (hread : ∀ reader, inner = some reader →
      ∀ a m, m.isDirect = true → Yields (reader m) a → p a m) :
    n.Lists (List.Forall₂ p as) := by
  rw [Format.readSequence, followUntagged_of_isDirect hn, pure_bind] at h
  cases n with
  | sequence items =>
    cases inner with
    | none => exact h.of_throw.elim
    | some reader =>
      refine ⟨items, rfl, (forall₂_of_readItems hn h).imp ?_⟩
      intro a m hm
      exact hread reader rfl a m hm.1 hm.2
  | scalar s =>
    simp only [hc.solid s, Bool.false_eq_true, if_false] at h
    exact h.of_throw.elim
  | _ => exact h.of_throw.elim

/-! ### Choices -/

theorem Choice.key_of_pick {T : Type} {ch : Choice T} {name : String} {t : T}
    (h : Yields (ch.pick name : Reading S T) t) : ch.key t = name := by
  unfold Choice.pick at h
  split at h
  · next found hfound =>
    have hkey := List.find?_some hfound
    rw [h.of_pure]
    simpa using hkey
  · exact h.of_throw.elim

/-- A choice has been made by a key alone or by the key of the only entry. -/
theorem node_of_readChoice (hc : c.Covers fmt) {T α : Type} {ch : Choice T} {bare : T → Option α}
    {inner : Option (T → Node S → Reading S α)} {n : Node S} (hn : n.isDirect = true) {a : α}
    (h : Yields (fmt.readChoice ch bare inner n) a) :
    (∃ t, n = c.textNode (ch.key t) ∧ bare t = some a) ∨
    ∃ t m reader, n = c.choiceNode (ch.key t) m ∧ m.isDirect = true ∧ bare t = none ∧
      inner = some reader ∧ Yields (reader t m) a := by
  rw [Format.readChoice, follow_of_isDirect hn, pure_bind] at h
  cases n with
  | scalar s =>
    left
    dsimp only at h
    split at h
    · exact h.of_throw.elim
    · split at h
      · next name hname =>
        obtain ⟨t, ht, h⟩ := h.of_bind
        split at h
        · next value hvalue =>
          refine ⟨t, ?_, ?_⟩
          · rw [Choice.key_of_pick ht, hc.found s name hname, Script.textNode]
          · rw [hvalue, h.of_pure]
        · exact h.of_throw.elim
      · exact h.of_throw.elim
  | mapping entries =>
    right
    cases inner with
    | none => exact h.of_throw.elim
    | some reader =>
      cases entries with
      | nil => exact h.of_throw.elim
      | cons first rest =>
        obtain ⟨k, m⟩ := first
        obtain ⟨hk, hm, -⟩ := Node.isDirectEntries_cons hn
        obtain ⟨name, hname, h⟩ := h.of_bind
        obtain ⟨t, ht, h⟩ := h.of_bind
        split at h
        · exact h.of_throw.elim
        · next hbare =>
          obtain ⟨value, hvalue, h⟩ := h.of_bind
          cases rest with
          | nil =>
            refine ⟨t, m, reader, ?_, hm, hbare, rfl, ?_⟩
            · rw [Choice.key_of_pick ht, textNode_of_readTextAs hc hk hname, Script.choiceNode]
            · rw [h.of_pure]
              exact hvalue
          | cons second _ =>
            obtain ⟨_, _, h⟩ := h.of_bind
            exact h.of_throw.elim
  | tagged content => cases hn
  | sequence items => exact h.of_throw.elim
  | reference number => cases hn
  | broken => exact h.of_throw.elim

/-! ### Structs -/

/-- What a draft holds for a field is accepted wherever it can have been read, and it holds something
unless the field may be left out. -/
structure Fits {V : Type} (held : Option V) (reader : Node S → Reading S V) (accepts : Node S → Prop)
    (mayOmit : Prop) : Prop where
  read : ∀ x m, held = some x → m.isDirect = true → Yields (reader m) x → accepts m
  omitted : held = none → mayOmit

theorem Fits.required {V : Type} {held : Option V} {v : V} {reader : Node S → Reading S V}
    {p : Node S → Prop} (hheld : held = some v)
    (hread : ∀ m, m.isDirect = true → Yields (reader m) v → p m) : Fits held reader p False where
  read x m hx hm hyields := by
    rw [hheld] at hx
    cases hx
    exact hread m hm hyields
  omitted hnone := by
    rw [hheld] at hnone
    cases hnone

theorem Fits.defaulted {V : Type} {held : Option V} {default : V} {reader : Node S → Reading S V}
    {p : V → Node S → Prop} (hread : ∀ x m, m.isDirect = true → Yields (reader m) x → p x m) :
    Fits held reader (p (held.getD default)) (held.getD default = default) where
  read x m hx hm hyields := by
    rw [hx, Option.getD_some]
    exact hread x m hm hyields
  omitted hnone := by rw [hnone, Option.getD_none]

/-- A field that can be nothing, and whose default is known only to the struct. -/
theorem Fits.optional {V : Type} {held : Option (Option V)} {default : V}
    {reader : Node S → Reading S (Option V)} {p : V → Node S → Prop}
    (hread : ∀ o m, m.isDirect = true → Yields (reader m) o → p (o.getD default) m) :
    Fits held reader (p ((held.getD none).getD default)) ((held.getD none).getD default = default) where
  read o m ho hm hyields := by
    rw [ho, Option.getD_some]
    exact hread o m hm hyields
  omitted hnone := by rw [hnone, Option.getD_none, Option.getD_none]

variable {sh : Shape} {w : Filling sh S} {reader : sh.Reader S}

theorem object_of_readEntries (hc : c.Covers fmt) {entries : List (Node S × Node S)}
    (hentries : Node.isDirectEntries entries = true) {draft d : sh.Draft}
    (h : Yields (fmt.readEntries sh reader entries draft) d)
    (hfits : ∀ f, Fits (d f) (reader f) (w.accepts f) (w.mayOmit f)) {missing : List sh.Field}
    (hnodup : missing.Nodup) (hmissing : ∀ f, f ∈ missing ↔ draft f = none) :
    w.Object c missing entries ∧ ∀ f x, draft f = some x → d f = some x := by
  -- along the entries; what has once been set stays, so the last draft accounts for every entry
  induction entries generalizing draft missing with
  | nil =>
    rw [h.of_pure] at hfits ⊢
    exact ⟨.done fun f hf => (hfits f).omitted ((hmissing f).1 hf), fun _ _ hx => hx⟩
  | cons e rest ih =>
    obtain ⟨k, v⟩ := e
    obtain ⟨hk, hv, hrest⟩ := Node.isDirectEntries_cons hentries
    obtain ⟨key, hkey, h⟩ := h.of_bind
    rw [textNode_of_readTextAs hc hk hkey]
    split at h
    · next hforeign =>
      obtain ⟨_, hpass, h⟩ := h.of_bind
      obtain ⟨hobject, hkept⟩ := ih hrest h hnodup hmissing
      have hintact : v.intact = true := by
        unfold pass at hpass
        split at hpass
        · assumption
        · exact hpass.of_throw.elim
      exact ⟨.foreign (Shape.field?_eq_none_iff.1 hforeign) hintact hobject, hkept⟩
    · next f hf =>
      split at h
      · exact h.of_throw.elim
      · next hfree =>
        have hnone : draft f = none := Option.not_isSome_iff_eq_none.1 hfree
        obtain ⟨x, hx, h⟩ := h.of_bind
        have hmissing' : ∀ g, g ∈ missing.erase f ↔ draft.set f x g = none := by
          intro g
          rw [hnodup.mem_erase_iff, hmissing g]
          by_cases hfg : f = g
          · subst hfg
            simp [draft.set_self]
          · simp [draft.set_of_ne hfg, Ne.symm hfg]
        obtain ⟨hobject, hkept⟩ := ih hrest h (hnodup.erase f) hmissing'
        have hheld := hkept f x (draft.set_self f x)
        refine ⟨?_, ?_⟩
        · rw [← Shape.key_of_field? hf]
          exact .field ((hmissing f).2 hnone) ((hfits f).read x v hheld hv hx) hobject
        · intro g y hy
          have hfg : f ≠ g := by
            intro heq
            subst heq
            rw [hnone] at hy
            cases hy
          exact hkept g y (by rw [draft.set_of_ne hfg, hy])

theorem eq_of_readPositions_nil {fields : List sh.Field} {position : Nat} {draft d : sh.Draft}
    (h : Yields (readPositions sh reader fields [] position draft) d) : d = draft := by
  induction fields generalizing position with
  | nil => exact h.of_pure
  | cons f rest ih =>
    unfold readPositions at h
    split at h
    · exact h.of_throw.elim
    · exact ih h

theorem positions_of_readPositions {fields : List sh.Field} {items : List (Node S)}
    (hitems : Node.isDirectAll items = true) {position : Nat} {draft d : sh.Draft}
    (h : Yields (readPositions sh reader fields items position draft) d)
    (hfits : ∀ f, Fits (d f) (reader f) (w.accepts f) (w.mayOmit f)) (hnodup : fields.Nodup)
    (hfree : ∀ f ∈ fields, draft f = none) :
    w.Positions fields items ∧ ∀ f, f ∉ fields → d f = draft f := by
  induction fields generalizing items position draft with
  | nil =>
    unfold readPositions at h
    split at h
    · next hempty =>
      rw [List.isEmpty_iff] at hempty
      rw [hempty, h.of_pure]
      exact ⟨.done fun f hf => absurd hf List.not_mem_nil, fun _ _ => rfl⟩
    · exact h.of_throw.elim
  | cons f rest ih =>
    cases items with
    | nil =>
      have heq := eq_of_readPositions_nil h
      rw [heq] at hfits ⊢
      exact ⟨.done fun g hg => (hfits g).omitted (hfree g hg), fun _ _ => rfl⟩
    | cons n items =>
      obtain ⟨hn, hitems⟩ := Node.isDirectAll_cons hitems
      obtain ⟨x, hx, h⟩ := h.of_bind
      rw [List.nodup_cons] at hnodup
      have hfree' : ∀ g ∈ rest, draft.set f x g = none := by
        intro g hg
        have hfg : f ≠ g := fun heq => hnodup.1 (heq ▸ hg)
        rw [draft.set_of_ne hfg]
        exact hfree g (List.mem_cons_of_mem _ hg)
      obtain ⟨hpositions, hkept⟩ := ih hitems h hnodup.2 hfree'
      have hheld : d f = some x := by rw [hkept f hnodup.1, draft.set_self]
      refine ⟨.item ((hfits f).read x n hheld hn hx) hpositions, ?_⟩
      intro g hg
      rw [List.mem_cons, not_or] at hg
      rw [hkept g hg.2, draft.set_of_ne (Ne.symm hg.1)]

/-- A struct that has been read is spelled by what its draft holds. -/
theorem spells_of_readStruct [sh.Lawful] (hc : c.Covers fmt) {inner : Option (sh.Reader S)}
    {n : Node S} (hn : n.isDirect = true) {d : sh.Draft} (h : Yields (fmt.readStruct sh inner n) d)
    (hfits : ∀ reader, inner = some reader →
      ∀ f, Fits (d f) (reader f) (w.accepts f) (w.mayOmit f)) : w.Spells c n := by
  rw [Format.readStruct, followUntagged_of_isDirect hn, pure_bind] at h
  cases n with
  | mapping entries =>
    cases inner with
    | none => exact h.of_throw.elim
    | some reader =>
      have hmissing : ∀ f, f ∈ sh.fields ↔ sh.blank f = none :=
        fun f => ⟨fun _ => rfl, fun _ => Shape.Lawful.mem_fields f⟩
      have hobject :=
        object_of_readEntries hc hn h (hfits reader rfl) Shape.nodup_fields hmissing
      exact .object hobject.1
  | sequence items =>
    dsimp only at h
    split at h
    · next hsequences =>
      cases inner with
      | none => exact h.of_throw.elim
      | some reader =>
        have hpositions := positions_of_readPositions hn h (hfits reader rfl) Shape.nodup_fields
          fun _ _ => rfl
        exact .sequence (hc.sequences hsequences) hpositions.1
    · exact h.of_throw.elim
  | scalar s =>
    simp only [hc.solid s, Bool.false_eq_true, if_false] at h
    exact h.of_throw.elim
  | _ => exact h.of_throw.elim

end

end AbiLayout.Document

/-! ### JSON -/

namespace AbiLayout.Json

open Document

theorem eq_of_word?_eq_some {s : Scalar} {w : UInt64} (h : s.word? = some w) :
    s = .integer w.toNat := by
  cases s with
  | integer n =>
    simp only [Scalar.word?, Bool.and_eq_true, decide_eq_true_eq] at h
    split at h
    · next hn =>
      obtain ⟨hpos, hlt⟩ := hn
      cases h
      rw [UInt64.toNat_ofNat_of_lt' hlt, Int.toNat_of_nonneg hpos]
    · cases h
  | _ => cases h

theorem script_covers_format : script.Covers format where
  text s x h := by
    cases s with
    | text t =>
      cases h
      rfl
    | _ => cases h
  found s x h := by
    cases s with
    | text t =>
      cases h
      rfl
    | _ => cases h
  flag s b h := by
    cases s with
    | boolean t =>
      cases h
      rfl
    | _ => cases h
  word _ _ h := eq_of_word?_eq_some h
  nothing s h := by
    cases s with
    | null => rfl
    | _ => cases h
  solid _ := rfl
  sequences _ := rfl

end AbiLayout.Json
