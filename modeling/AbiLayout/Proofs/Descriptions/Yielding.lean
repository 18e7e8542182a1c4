import AbiLayout.Description.Reading
import AbiLayout.Proofs.Descriptions.Spelling
import AbiLayout.Proofs.Documents.Yielding

/-!
# What descriptions are read from

A tree that has been read as a description spells that description: no field, entry or alternative has
come from nowhere, and none has gone but keys that mean nothing.
-/

namespace AbiLayout

open Document
open Document.Reading (Yields)

section

variable {S : Type} {c : Script S} {fmt : Format S}

/-! ### Enumerations -/

theorem textNode_of_readIntegral (hc : c.Covers fmt) {depth : Nat} {n : Node S}
    (hn : n.isDirect = true) {kind : Integral} (h : Yields (readIntegral fmt depth n) kind) :
    n = c.textNode kind.name := by
  rcases node_of_readChoice hc hn h with ⟨t, ht, hbare⟩ | ⟨t, m, reader, _, _, hbare, _⟩
  · cases hbare
    exact ht
  · cases hbare

theorem spelled_of_readNamedValue (hc : c.Covers fmt) {depth : Nat} {n : Node S}
    (hn : n.isDirect = true) {v : NamedValue} (h : Yields (readNamedValue fmt depth n) v) :
    v.Spelled c n := by
  obtain ⟨draft, hdraft, h⟩ := h.of_bind
  obtain ⟨name, hname, h⟩ := h.of_bind
  obtain ⟨value, hvalue, h⟩ := h.of_bind
  rw [h.of_pure]
  refine spells_of_readStruct hc hn hdraft ?_
  intro reader hreader f
  cases depth with
  | zero => cases hreader
  | succ d =>
    cases hreader
    cases f with
    | name => exact .required hname.of_required fun m hm hx => textNode_of_readText hc hm hx
    | value => exact .required hvalue.of_required fun m hm hx => wordNode_of_readWord hc hm hx

theorem lists_of_readNamedValues (hc : c.Covers fmt) {depth : Nat} {n : Node S}
    (hn : n.isDirect = true) {values : List NamedValue}
    (h : Yields (readNamedValues fmt depth n) values) :
    n.Lists (List.Forall₂ (NamedValue.Spelled c) values) := by
  refine lists_of_readSequence hc hn h fun reader hreader v m hm hv => ?_
  cases depth with
  | zero => cases hreader
  | succ d =>
    cases hreader
    exact spelled_of_readNamedValue hc hm hv

theorem spelled_of_readIntLike (hc : c.Covers fmt) {depth : Nat} {n : Node S}
    (hn : n.isDirect = true) {e : IntLike} (h : Yields (readIntLike fmt depth n) e) :
    e.Spelled c n := by
  obtain ⟨draft, hdraft, h⟩ := h.of_bind
  obtain ⟨name, hname, h⟩ := h.of_bind
  obtain ⟨intType, hintType, h⟩ := h.of_bind
  rw [h.of_pure]
  refine spells_of_readStruct hc hn hdraft ?_
  intro reader hreader f
  cases depth with
  | zero => cases hreader
  | succ d =>
    cases hreader
    cases f with
    | name => exact .required hname.of_required fun m hm hx => textNode_of_readText hc hm hx
    | intType =>
      exact .required hintType.of_required fun m hm hx => textNode_of_readIntegral hc hm hx
    | flags => exact .defaulted fun x m hm hx => flagNode_of_readFlag hc hm hx
    | infixName => exact .defaulted fun x m hm hx => optionNode_of_readOptional hc hm hx
    | values => exact .defaulted fun x m hm hx => lists_of_readNamedValues hc hm hx

/-! ### Types and members -/

/-- With some number of containers left to enter, types, members and alternatives are read from nothing
but what spells them. -/
structure ReadsSpelled (c : Script S) (fmt : Format S) (depth : Nat) : Prop where
  type : ∀ {n : Node S}, n.isDirect = true →
    ∀ {t : AbiType}, Yields (readType fmt depth n) t → t.Spelled c n
  member : ∀ {n : Node S}, n.isDirect = true →
    ∀ {m : Member}, Yields (readMember fmt depth n) m → m.Spelled c n
  alternative : ∀ {n : Node S}, n.isDirect = true →
    ∀ {a : Alternative}, Yields (readAlternative fmt depth n) a → a.Spelled c n

theorem nameOrDefault_of_readOptional (hc : c.Covers fmt) {n : Node S} (hn : n.isDirect = true)
    {o : Option String} (h : Yields (fmt.readOptional fmt.readText n) o) (default : String) :
    NameOrDefault c default (o.getD default) n :=
  ⟨o, optionNode_of_readOptional hc hn h, rfl⟩

section

variable (hc : c.Covers fmt) {depth : Nat} (hbelow : ∀ d < depth, ReadsSpelled c fmt d)

include hc hbelow

theorem spells_of_readPointer {n : Node S} (hn : n.isDirect = true) {t : AbiType}
    (h : Yields (readPointer fmt depth n) t) :
    ∃ target constant, t = .pointer target constant ∧
      (pointerFilling c (target.Spelled c) constant).Spells c n := by
  rw [readPointer.eq_def] at h
  obtain ⟨draft, hdraft, h⟩ := h.of_bind
  obtain ⟨target, htarget, h⟩ := h.of_bind
  refine ⟨_, _, h.of_pure, spells_of_readStruct hc hn hdraft ?_⟩
  intro reader hreader f
  cases depth with
  | zero => cases hreader
  | succ d =>
    have hinner := hbelow d d.lt_succ_self
    cases hreader
    cases f with
    | target => exact .required htarget.of_required fun m hm hx => hinner.type hm hx
    | constant => exact .defaulted fun x m hm hx => flagNode_of_readFlag hc hm hx

theorem spells_of_readArray {n : Node S} (hn : n.isDirect = true) {t : AbiType}
    (h : Yields (readArray fmt depth n) t) :
    ∃ element count, t = .array element count ∧
      (arrayFilling c (element.Spelled c) count).Spells c n := by
  rw [readArray.eq_def] at h
  obtain ⟨draft, hdraft, h⟩ := h.of_bind
  obtain ⟨element, helement, h⟩ := h.of_bind
  obtain ⟨count, hcount, h⟩ := h.of_bind
  refine ⟨_, _, h.of_pure, spells_of_readStruct hc hn hdraft ?_⟩
  intro reader hreader f
  cases depth with
  | zero => cases hreader
  | succ d =>
    have hinner := hbelow d d.lt_succ_self
    cases hreader
    cases f with
    | element => exact .required helement.of_required fun m hm hx => hinner.type hm hx
    | count => exact .required hcount.of_required fun m hm hx => wordNode_of_readWord hc hm hx

theorem spells_of_readAlias {n : Node S} (hn : n.isDirect = true) {t : AbiType}
    (h : Yields (readAlias fmt depth n) t) :
    ∃ name underlying, t = .aliasOf name underlying ∧
      (aliasFilling c name (underlying.Spelled c)).Spells c n := by
  rw [readAlias.eq_def] at h
  obtain ⟨draft, hdraft, h⟩ := h.of_bind
  obtain ⟨name, hname, h⟩ := h.of_bind
  obtain ⟨underlying, hunderlying, h⟩ := h.of_bind
  refine ⟨_, _, h.of_pure, spells_of_readStruct hc hn hdraft ?_⟩
  intro reader hreader f
  cases depth with
  | zero => cases hreader
  | succ d =>
    have hinner := hbelow d d.lt_succ_self
    cases hreader
    cases f with
    | name => exact .required hname.of_required fun m hm hx => textNode_of_readText hc hm hx
    | underlying => exact .required hunderlying.of_required fun m hm hx => hinner.type hm hx

theorem lists_of_readMembers {n : Node S} (hn : n.isDirect = true) {members : List Member}
    (h : Yields (readMembers fmt depth n) members) : n.Lists (MembersSpelled c members) := by
  rw [readMembers.eq_def] at h
  obtain ⟨items, rfl, hitems⟩ : n.Lists (List.Forall₂ (Member.Spelled c) members) := by
    refine lists_of_readSequence hc hn h fun reader hreader a m hm ha => ?_
    cases depth with
    | zero => cases hreader
    | succ d =>
      cases hreader
      exact (hbelow d d.lt_succ_self).member hm ha
  exact ⟨items, rfl, (membersSpelled_iff c).2 hitems⟩

theorem lists_of_readAlternatives {n : Node S} (hn : n.isDirect = true)
    {alternatives : List Alternative} (h : Yields (readAlternatives fmt depth n) alternatives) :
    n.Lists (AlternativesSpelled c alternatives) := by
  rw [readAlternatives.eq_def] at h
  obtain ⟨items, rfl, hitems⟩ : n.Lists (List.Forall₂ (Alternative.Spelled c) alternatives) := by
    refine lists_of_readSequence hc hn h fun reader hreader a m hm ha => ?_
    cases depth with
    | zero => cases hreader
    | succ d =>
      cases hreader
      exact (hbelow d d.lt_succ_self).alternative hm ha
  exact ⟨items, rfl, (alternativesSpelled_iff c).2 hitems⟩

theorem spells_of_readRecord {n : Node S} (hn : n.isDirect = true) {t : AbiType}
    (h : Yields (readRecord fmt depth n) t) :
    ∃ name members, t = .record name members ∧
      (recordFilling c name members (Node.Lists (MembersSpelled c members))).Spells c n := by
  rw [readRecord.eq_def] at h
  obtain ⟨draft, hdraft, h⟩ := h.of_bind
  obtain ⟨name, hname, h⟩ := h.of_bind
  refine ⟨_, _, h.of_pure, spells_of_readStruct hc hn hdraft ?_⟩
  intro reader hreader f
  cases depth with
  | zero => cases hreader
  | succ d =>
    have hinner : ∀ k < d, ReadsSpelled c fmt k := fun k hk => hbelow k (Nat.lt_succ_of_lt hk)
    cases hreader
    cases f with
    | name => exact .required hname.of_required fun m hm hx => textNode_of_readText hc hm hx
    | members => exact .defaulted fun x m hm hx => lists_of_readMembers hc hinner hm hx

theorem spells_of_readSimple {n : Node S} (hn : n.isDirect = true) {member : Member}
    (h : Yields (readSimple fmt depth n) member) :
    ∃ name type, member = .simple name type ∧
      (simpleFilling c name (type.Spelled c)).Spells c n := by
  rw [readSimple.eq_def] at h
  obtain ⟨draft, hdraft, h⟩ := h.of_bind
  obtain ⟨name, hname, h⟩ := h.of_bind
  obtain ⟨type, htype, h⟩ := h.of_bind
  refine ⟨_, _, h.of_pure, spells_of_readStruct hc hn hdraft ?_⟩
  intro reader hreader f
  cases depth with
  | zero => cases hreader
  | succ d =>
    have hinner := hbelow d d.lt_succ_self
    cases hreader
    cases f with
    | name => exact .required hname.of_required fun m hm hx => textNode_of_readText hc hm hx
    | type => exact .required htype.of_required fun m hm hx => hinner.type hm hx

theorem spells_of_readVariant {n : Node S} (hn : n.isDirect = true) {member : Member}
    (h : Yields (readVariant fmt depth n) member) :
    ∃ alternatives, member = .variant alternatives ∧
      (variantFilling (Node.Lists (AlternativesSpelled c alternatives))).Spells c n := by
  rw [readVariant.eq_def] at h
  obtain ⟨draft, hdraft, h⟩ := h.of_bind
  obtain ⟨alternatives, halternatives, h⟩ := h.of_bind
  refine ⟨_, h.of_pure, spells_of_readStruct hc hn hdraft ?_⟩
  intro reader hreader f
  cases depth with
  | zero => cases hreader
  | succ d =>
    have hinner : ∀ k < d, ReadsSpelled c fmt k := fun k hk => hbelow k (Nat.lt_succ_of_lt hk)
    cases hreader
    exact .required halternatives.of_required fun m hm hx =>
      lists_of_readAlternatives hc hinner hm hx

theorem spells_of_readRange {n : Node S} (hn : n.isDirect = true) {member : Member}
    (h : Yields (readRange fmt depth n) member) :
    ∃ name target constant baseName lengthName,
      member = .range name target constant baseName lengthName ∧
      (rangeFilling c name (target.Spelled c) constant baseName lengthName).Spells c n := by
  rw [readRange.eq_def] at h
  obtain ⟨draft, hdraft, h⟩ := h.of_bind
  obtain ⟨name, hname, h⟩ := h.of_bind
  obtain ⟨target, htarget, h⟩ := h.of_bind
  refine ⟨_, _, _, _, _, h.of_pure, spells_of_readStruct hc hn hdraft ?_⟩
  intro reader hreader f
  cases depth with
  | zero => cases hreader
  | succ d =>
    have hinner := hbelow d d.lt_succ_self
    cases hreader
    cases f with
    | name => exact .required hname.of_required fun m hm hx => textNode_of_readText hc hm hx
    | target => exact .required htarget.of_required fun m hm hx => hinner.type hm hx
    | constant => exact .defaulted fun x m hm hx => flagNode_of_readFlag hc hm hx
    | baseName => exact .optional fun o m hm hx => nameOrDefault_of_readOptional hc hm hx name
    | lengthName =>
      exact .optional fun o m hm hx => nameOrDefault_of_readOptional hc hm hx
        (Member.defaultLengthName name)

theorem spelled_of_readType {n : Node S} (hn : n.isDirect = true) {t : AbiType}
    (h : Yields (readType fmt depth n) t) : t.Spelled c n := by
  rw [readType.eq_def] at h
  rcases node_of_readChoice hc hn h with
    ⟨form, hform, hbare⟩ | ⟨form, m, reader, rfl, hm, _, hreader, h⟩
  · cases form with
    | void =>
      cases hbare
      exact hform
    | _ => cases hbare
  · cases depth with
    | zero => cases hreader
    | succ d =>
      have hinner : ∀ k < d, ReadsSpelled c fmt k := fun k hk => hbelow k (Nat.lt_succ_of_lt hk)
      cases hreader
      cases form with
      | void => contradiction
      | int =>
        obtain ⟨kind, hkind, h⟩ := h.of_bind
        rw [h.of_pure, textNode_of_readIntegral hc hm hkind]
        rfl
      | atomic =>
        obtain ⟨target, htarget, h⟩ := h.of_bind
        rw [h.of_pure]
        exact ⟨m, rfl, (hbelow d d.lt_succ_self).type hm htarget⟩
      | pointer =>
        obtain ⟨target, constant, rfl, hspells⟩ := spells_of_readPointer hc hinner hm h
        exact ⟨m, rfl, hspells⟩
      | array =>
        obtain ⟨element, count, rfl, hspells⟩ := spells_of_readArray hc hinner hm h
        exact ⟨m, rfl, hspells⟩
      | aliasOf =>
        obtain ⟨name, underlying, rfl, hspells⟩ := spells_of_readAlias hc hinner hm h
        exact ⟨m, rfl, hspells⟩
      | intLike =>
        obtain ⟨body, hbody, h⟩ := h.of_bind
        rw [h.of_pure]
        exact ⟨m, rfl, spelled_of_readIntLike hc hm hbody⟩
      | userDefined =>
        obtain ⟨name, hname, h⟩ := h.of_bind
        rw [h.of_pure, textNode_of_readText hc hm hname]
        rfl
      | record =>
        obtain ⟨name, members, rfl, hspells⟩ := spells_of_readRecord hc hinner hm h
        exact ⟨m, rfl, hspells⟩

theorem spelled_of_readMember {n : Node S} (hn : n.isDirect = true) {member : Member}
    (h : Yields (readMember fmt depth n) member) : member.Spelled c n := by
  rw [readMember.eq_def] at h
  rcases node_of_readChoice hc hn h with
    ⟨form, _, hbare⟩ | ⟨form, m, reader, rfl, hm, _, hreader, h⟩
  · cases hbare
  · cases depth with
    | zero => cases hreader
    | succ d =>
      have hinner : ∀ k < d, ReadsSpelled c fmt k := fun k hk => hbelow k (Nat.lt_succ_of_lt hk)
      cases hreader
      cases form with
      | simple =>
        obtain ⟨name, type, rfl, hspells⟩ := spells_of_readSimple hc hinner hm h
        exact ⟨m, rfl, hspells⟩
      | variant =>
        obtain ⟨alternatives, rfl, hspells⟩ := spells_of_readVariant hc hinner hm h
        exact ⟨m, rfl, hspells⟩
      | range =>
        obtain ⟨name, target, constant, baseName, lengthName, rfl, hspells⟩ :=
          spells_of_readRange hc hinner hm h
        exact ⟨m, rfl, hspells⟩

theorem spelled_of_readAlternative {n : Node S} (hn : n.isDirect = true) {a : Alternative}
    (h : Yields (readAlternative fmt depth n) a) : a.Spelled c n := by
  rw [readAlternative.eq_def] at h
  obtain ⟨draft, hdraft, h⟩ := h.of_bind
  rw [h.of_pure, Alternative.Spelled]
  refine spells_of_readStruct hc hn hdraft ?_
  intro reader hreader f
  cases depth with
  | zero => cases hreader
  | succ d =>
    have hinner : ∀ k < d, ReadsSpelled c fmt k := fun k hk => hbelow k (Nat.lt_succ_of_lt hk)
    cases hreader
    cases f with
    | name => exact .defaulted fun x m hm hx => optionNode_of_readOptional hc hm hx
    | members => exact .defaulted fun x m hm hx => lists_of_readMembers hc hinner hm hx

end

theorem readsSpelled (hc : c.Covers fmt) (depth : Nat) : ReadsSpelled c fmt depth := by
  -- a type that stands in a type is read two or more containers further in, so not only one below
  induction depth using Nat.strongRecOn with
  | ind depth hbelow =>
    exact ⟨spelled_of_readType hc hbelow, spelled_of_readMember hc hbelow,
      spelled_of_readAlternative hc hbelow⟩

/-! ### Descriptions -/

theorem lists_of_readTypes (hc : c.Covers fmt) {depth : Nat} {n : Node S} (hn : n.isDirect = true)
    {types : List AbiType} (h : Yields (readTypes fmt depth n) types) :
    n.Lists (List.Forall₂ (AbiType.Spelled c) types) := by
  refine lists_of_readSequence hc hn h fun reader hreader t m hm ht => ?_
  cases depth with
  | zero => cases hreader
  | succ d =>
    cases hreader
    exact (readsSpelled hc d).type hm ht

theorem spelled_of_readInterface (hc : c.Covers fmt) {depth : Nat} {n : Node S}
    (hn : n.isDirect = true) {i : Interface} (h : Yields (readInterface fmt depth n) i) :
    i.Spelled c n := by
  obtain ⟨draft, hdraft, h⟩ := h.of_bind
  obtain ⟨name, hname, h⟩ := h.of_bind
  rw [h.of_pure]
  refine spells_of_readStruct hc hn hdraft ?_
  intro reader hreader f
  cases depth with
  | zero => cases hreader
  | succ d =>
    cases hreader
    cases f with
    | name => exact .required hname.of_required fun m hm hx => textNode_of_readText hc hm hx
    | description => exact .defaulted fun x m hm hx => optionNode_of_readOptional hc hm hx

theorem spelled_of_readDescription (hc : c.Covers fmt) {depth : Nat} {n : Node S}
    (hn : n.isDirect = true) {f : Description} (h : Yields (readDescription fmt depth n) f) :
    f.Spelled c n := by
  obtain ⟨draft, hdraft, h⟩ := h.of_bind
  obtain ⟨interface, hinterface, h⟩ := h.of_bind
  rw [h.of_pure]
  refine spells_of_readStruct hc hn hdraft ?_
  intro reader hreader field
  cases depth with
  | zero => cases hreader
  | succ d =>
    cases hreader
    cases field with
    | interface =>
      exact .required hinterface.of_required fun m hm hx => spelled_of_readInterface hc hm hx
    | types => exact .defaulted fun x m hm hx => lists_of_readTypes hc hm hx

end

/-- A document that is read as a description spells it: every struct has its fields once and under
their keys or in their order, every choice is made by one key, every list has an entry for each of its
items, and what is absent has its default. -/
theorem spelled_of_read (doc : Parsed Json.Scalar) (depth : Nat) (f : Description)
    (hdirect : doc.root.isDirect = true)
    (h : doc.read (readDescription Json.format depth) = .ok f) :
    f.Spelled Json.script doc.root := by
  have hyields := (yields_of_read h).1
  exact spelled_of_readDescription Json.script_covers_format hdirect hyields

def clocks : Description where
  interface := ⟨"clocks", none⟩
  types := [.intLike ⟨"clockid", .uint32, true, none, [⟨"realtime", 1⟩]⟩, .void]

/-- Structs as sequences of their fields, and a name that is not given. -/
def positionalClocks : Json.Tree :=
  .array
    [.object [("name", .text "clocks")],
      .array
        [.object [("int-like", .array
            [.text "clockid", .text "uint32", .bool true, .null,
              .array [.array [.text "realtime", .nat 1]]])],
          .text "void"]]

theorem spelled_of_read_clocks :
    positionalClocks.isDirect = true ∧
    Parsed.read ⟨positionalClocks, true, #[], 0⟩ (readDescription Json.format 8) = .ok clocks ∧
    clocks.Spelled Json.script positionalClocks := by
  have hread : Parsed.read ⟨positionalClocks, true, #[], 0⟩ (readDescription Json.format 8) =
      .ok clocks := by rfl
  exact ⟨by decide, hread, spelled_of_read _ 8 clocks (by decide) hread⟩

end AbiLayout
