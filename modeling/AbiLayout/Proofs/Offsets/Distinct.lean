import AbiLayout.Proofs.Names.Declarable
import AbiLayout.Proofs.Offsets.Members
import AbiLayout.Proofs.Records.DistinctNames
import Mathlib.Data.List.Nodup

/-!
# Offsets are told apart

Names are compared scope by scope, and only after mangling; the offsets of all scopes are told apart by
their paths. Main statement: in a record that is defined no two offsets have one generated path, and if
its names are good and its ranges begin under their own names, no two fields have one canonical path.
-/

namespace AbiLayout.Cpp

open Text (dotless_of_isIdentifier)

/-! ### Ways that part -/

/-- Neither list is the beginning of the other. -/
def Apart (a b : List String) : Prop := ¬ a <+: b ∧ ¬ b <+: a

theorem Apart.ne {a b : List String} (h : Apart a b) : a ≠ b := by
  rintro rfl
  exact h.1 (List.prefix_refl a)

theorem Apart.symm {a b : List String} (h : Apart a b) : Apart b a := And.symm h

/-- Lists that part at one name are apart, whatever comes after it. -/
theorem apart_of_fork {start a b : List String} {x y : String} (ha : start ++ [x] <+: a)
    (hb : start ++ [y] <+: b) (hne : x ≠ y) : Apart a b := by
  have hfork : ∀ c, start ++ [x] <+: c → start ++ [y] <+: c → False := by
    intro c hx hy
    have hlen : (start ++ [x]).length = (start ++ [y]).length := by simp
    have heq := (List.prefix_of_prefix_length_le hx hy (Nat.le_of_eq hlen)).eq_of_length hlen
    exact hne (by simpa using heq)
  exact ⟨fun h => hfork b (ha.trans h) hb, fun h => hfork a ha (hb.trans h)⟩

-- A place is reached through the first name after those around its scope, and that name is declared by
-- the scope: for the field itself, or for the named alternative that it stands in.
mutual

theorem entrance_of_memberPlaces {around : List String} {p : Place} (m : Member)
    (hp : p ∈ memberPlaces around m) :
    ∃ x ∈ memberNames m, around.map mangle ++ [x] <+: p.generatedParts := by
  cases m with
  | simple name type =>
    rw [memberPlaces, List.mem_singleton] at hp
    subst hp
    refine ⟨mangle name, List.mem_singleton.2 rfl, ?_⟩
    simp [Place.generatedParts]
  | variant alternatives =>
    rw [memberPlaces] at hp
    rw [memberNames]
    exact entrance_of_alternativesPlaces alternatives hp
  | range name target constant baseName lengthName =>
    rw [memberPlaces, List.mem_singleton] at hp
    subst hp
    refine ⟨mangle name, List.mem_singleton.2 rfl, ?_⟩
    simp [Place.generatedParts]

theorem entrance_of_membersPlaces {around : List String} {p : Place} (ms : List Member)
    (hp : p ∈ membersPlaces around ms) :
    ∃ x ∈ declaredNames ms, around.map mangle ++ [x] <+: p.generatedParts := by
  cases ms with
  | nil => simp [membersPlaces] at hp
  | cons m rest =>
    rw [membersPlaces, List.mem_append] at hp
    rw [declaredNames]
    rcases hp with hp | hp
    · obtain ⟨x, hx, hpre⟩ := entrance_of_memberPlaces m hp
      exact ⟨x, List.mem_append_left _ hx, hpre⟩
    · obtain ⟨x, hx, hpre⟩ := entrance_of_membersPlaces rest hp
      exact ⟨x, List.mem_append_right _ hx, hpre⟩

theorem entrance_of_alternativePlaces {around : List String} {p : Place} (a : Alternative)
    (hp : p ∈ alternativePlaces around a) :
    ∃ x ∈ alternativeNames a, around.map mangle ++ [x] <+: p.generatedParts := by
  match a with
  | .mk none members =>
    rw [alternativePlaces] at hp
    rw [alternativeNames]
    exact entrance_of_membersPlaces members hp
  | .mk (some name) members =>
    rw [alternativePlaces] at hp
    obtain ⟨x, _, hpre⟩ := entrance_of_membersPlaces members hp
    refine ⟨mangle name, List.mem_singleton.2 rfl, ?_⟩
    rw [List.map_append, List.map_singleton] at hpre
    exact (List.prefix_append _ [x]).trans hpre

theorem entrance_of_alternativesPlaces {around : List String} {p : Place} (as : List Alternative)
    (hp : p ∈ alternativesPlaces around as) :
    ∃ x ∈ alternativesNames as, around.map mangle ++ [x] <+: p.generatedParts := by
  cases as with
  | nil => simp [alternativesPlaces] at hp
  | cons a rest =>
    rw [alternativesPlaces, List.mem_append] at hp
    rw [alternativesNames]
    rcases hp with hp | hp
    · obtain ⟨x, hx, hpre⟩ := entrance_of_alternativePlaces a hp
      exact ⟨x, List.mem_append_left _ hx, hpre⟩
    · obtain ⟨x, hx, hpre⟩ := entrance_of_alternativesPlaces rest hp
      exact ⟨x, List.mem_append_right _ hx, hpre⟩

end

/-- Places behind different entrances are apart. -/
theorem apart_of_entrances {around ns ms : List String} {ps qs : List Place}
    (hps : ∀ p ∈ ps, ∃ x ∈ ns, around.map mangle ++ [x] <+: p.generatedParts)
    (hqs : ∀ q ∈ qs, ∃ y ∈ ms, around.map mangle ++ [y] <+: q.generatedParts)
    (hdisjoint : ns.Disjoint ms) :
    ∀ p ∈ ps, ∀ q ∈ qs, Apart p.generatedParts q.generatedParts := by
  intro p hp q hq
  obtain ⟨x, hx, hpx⟩ := hps p hp
  obtain ⟨y, hy, hqy⟩ := hqs q hq
  have hne : x ≠ y := by
    rintro rfl
    exact hdisjoint hx hy
  exact apart_of_fork hpx hqy hne

/-- Where no scope declares a name twice, the ways to any two fields part. -/
def AllApart (ps : List Place) : Prop :=
  ps.Pairwise fun p q => Apart p.generatedParts q.generatedParts

mutual

theorem allApart_memberPlaces (around : List String) (m : Member) (hown : (memberNames m).Nodup)
    (hinner : ∀ ms ∈ memberScopes m, (declaredNames ms).Nodup) :
    AllApart (memberPlaces around m) := by
  cases m with
  | simple name type => exact List.pairwise_singleton ..
  | variant alternatives =>
    rw [memberNames] at hown
    rw [memberScopes] at hinner
    rw [memberPlaces]
    exact allApart_alternativesPlaces around alternatives hown hinner
  | range name target constant baseName lengthName => exact List.pairwise_singleton ..

theorem allApart_membersPlaces (around : List String) (ms : List Member)
    (hown : (declaredNames ms).Nodup)
    (hinner : ∀ inner ∈ membersScopes ms, (declaredNames inner).Nodup) :
    AllApart (membersPlaces around ms) := by
  cases ms with
  | nil => exact .nil
  | cons m rest =>
    rw [declaredNames, List.nodup_append'] at hown
    rw [membersScopes, List.forall_mem_append] at hinner
    obtain ⟨hm, hrest, hdisjoint⟩ := hown
    rw [membersPlaces, AllApart, List.pairwise_append]
    refine ⟨allApart_memberPlaces around m hm hinner.1,
      allApart_membersPlaces around rest hrest hinner.2, ?_⟩
    exact apart_of_entrances (fun p hp => entrance_of_memberPlaces m hp)
      (fun q hq => entrance_of_membersPlaces rest hq) hdisjoint

theorem allApart_alternativePlaces (around : List String) (a : Alternative)
    (hown : (alternativeNames a).Nodup)
    (hinner : ∀ ms ∈ alternativeScopes a, (declaredNames ms).Nodup) :
    AllApart (alternativePlaces around a) := by
  match a with
  | .mk none members =>
    rw [alternativeNames] at hown
    rw [alternativeScopes] at hinner
    rw [alternativePlaces]
    exact allApart_membersPlaces around members hown hinner
  | .mk (some name) members =>
    -- a named alternative is a scope of its own, whose names are among the inner ones
    rw [alternativeScopes, List.forall_mem_cons] at hinner
    rw [alternativePlaces]
    exact allApart_membersPlaces (around ++ [name]) members hinner.1 hinner.2

theorem allApart_alternativesPlaces (around : List String) (as : List Alternative)
    (hown : (alternativesNames as).Nodup)
    (hinner : ∀ ms ∈ alternativesScopes as, (declaredNames ms).Nodup) :
    AllApart (alternativesPlaces around as) := by
  cases as with
  | nil => exact .nil
  | cons a rest =>
    rw [alternativesNames, List.nodup_append'] at hown
    rw [alternativesScopes, List.forall_mem_append] at hinner
    obtain ⟨ha, hrest, hdisjoint⟩ := hown
    rw [alternativesPlaces, AllApart, List.pairwise_append]
    refine ⟨allApart_alternativePlaces around a ha hinner.1,
      allApart_alternativesPlaces around rest hrest hinner.2, ?_⟩
    exact apart_of_entrances (fun p hp => entrance_of_alternativePlaces a hp)
      (fun q hq => entrance_of_alternativesPlaces rest hq) hdisjoint

end

theorem allApart_places {s : RecordSettings} {lead : String} {r : Record} {n : Nat}
    (h : (defineRecord s lead r).result = .ok n) : AllApart (Record.places r) := by
  have hscopes := List.forall_mem_cons.1 (nodup_of_defineRecord h)
  exact allApart_membersPlaces [] r.members hscopes.1 hscopes.2

/-! ### Generated paths -/

namespace Place

theorem generatedParts_ne_nil (p : Place) : p.generatedParts ≠ [] := by
  simp [generatedParts]

theorem canonicalParts_ne_nil (p : Place) : p.canonicalParts ≠ [] := by
  simp [canonicalParts]

theorem dotParts_generated (p : Place) : dotParts (dotted p.generatedParts) = p.generatedParts := by
  refine dotParts_dotted p.generatedParts_ne_nil ?_
  intro part hpart
  obtain ⟨name, _, rfl⟩ := List.mem_map.1 hpart
  exact dotless_of_isIdentifier (mangle_declarable name).identifier

/-- The generated paths of a place end with its name, or with the length member of its view. -/
theorem generated_of_offsets {lengthMember : Option String} {p : Place} {o : SharedOffset}
    (ho : o ∈ p.offsets lengthMember) :
    o.generated = dotted p.generatedParts ∨
      ∃ m, lengthMember = some m ∧ o.generated = dotted p.generatedParts ++ "." ++ m := by
  rcases mem_offsets_cases ho with ⟨_, rfl⟩ | ⟨lengthName, _, rfl | ⟨m, hm, rfl⟩⟩
  · exact .inl rfl
  · exact .inl rfl
  · exact .inr ⟨m, hm, rfl⟩

theorem nodup_generated_offsets (lengthMember : Option String) (p : Place) :
    ((p.offsets lengthMember).map SharedOffset.generated).Nodup := by
  have hlonger : ∀ path m : String, path ≠ path ++ "." ++ m := by
    intro path m h
    have hlen := congrArg String.length h
    simp only [String.length_append] at hlen
    have hdot : ".".length = 1 := by decide
    omega
  unfold offsets
  split
  · exact List.nodup_singleton _
  · cases lengthMember with
    | none => exact List.nodup_singleton _
    | some m => simpa using hlonger _ m

end Place

/-- A path that goes on below a field is not the path of a field that the way to it parts from. -/
theorem below_ne_of_apart {p q : Place} (h : Apart p.generatedParts q.generatedParts) (m : String) :
    dotted p.generatedParts ++ "." ++ m ≠ dotted q.generatedParts := by
  intro heq
  have hparts := congrArg dotParts heq
  rw [dotParts_append_dot, p.dotParts_generated, q.dotParts_generated] at hparts
  exact h.1 ⟨dotParts m, hparts⟩

theorem generated_disjoint_of_apart {p q : Place} (h : Apart p.generatedParts q.generatedParts)
    (lengthMember : Option String) :
    ((p.offsets lengthMember).map SharedOffset.generated).Disjoint
      ((q.offsets lengthMember).map SharedOffset.generated) := by
  have hfields : dotted p.generatedParts ≠ dotted q.generatedParts := by
    intro heq
    have hparts := congrArg dotParts heq
    rw [p.dotParts_generated, q.dotParts_generated] at hparts
    exact h.ne hparts
  intro path hp hq
  obtain ⟨a, ha, rfl⟩ := List.mem_map.1 hp
  obtain ⟨b, hb, hab⟩ := List.mem_map.1 hq
  rcases Place.generated_of_offsets ha with ha | ⟨m, hm, ha⟩
  · rcases Place.generated_of_offsets hb with hb | ⟨k, _, hb⟩
    · exact hfields (ha.symm.trans (hab.symm.trans hb))
    · exact below_ne_of_apart h.symm k (hb.symm.trans (hab.trans ha))
  · rcases Place.generated_of_offsets hb with hb | ⟨k, hk, hb⟩
    · exact below_ne_of_apart h m (ha.symm.trans (hab.symm.trans hb))
    · -- both are lengths of views, and the view has only one length member
      obtain rfl : m = k := Option.some.inj (hm.symm.trans hk)
      have heq := ha.symm.trans (hab.symm.trans hb)
      rw [String.append_left_inj, String.append_left_inj] at heq
      exact hfields heq

theorem nodup_generated_of_allApart {ps : List Place} (h : AllApart ps)
    (lengthMember : Option String) :
    ((ps.flatMap (Place.offsets lengthMember)).map SharedOffset.generated).Nodup := by
  rw [List.map_flatMap, List.nodup_flatMap]
  refine ⟨fun p _ => p.nodup_generated_offsets lengthMember, ?_⟩
  exact h.imp fun hpq => generated_disjoint_of_apart hpq lengthMember

/-! ### Canonical paths -/

/-- A member list holds a member, itself or inside an alternative. -/
inductive Holds : List Member → Member → Prop where
  | here {ms : List Member} {m : Member} (h : m ∈ ms) : Holds ms m
  | inside {ms inner : List Member} {alternatives : List Alternative} {name : Option String}
    {m : Member} (hv : .variant alternatives ∈ ms) (ha : .mk name inner ∈ alternatives)
    (h : Holds inner m) : Holds ms m

/-- A place whose canonical field has a name of its own is that of a range. -/
def Place.HeldBy (p : Place) (ms : List Member) : Prop :=
  p.baseName = p.name ∨
    ∃ target constant lengthName, Holds ms (.range p.name target constant p.baseName lengthName)

theorem Stands.holds {ms : List Member} {around : List String} {m : Member} (h : Stands ms around m) :
    Holds ms m := by
  induction h with
  | here h => exact .here h
  | hoisted hv ha _ ih => exact .inside hv ha ih
  | nested hv ha _ ih => exact .inside hv ha ih

theorem heldBy_of_membersPlaces {around : List String} {p : Place} {ms : List Member}
    (part : List Member) (hsub : ∀ m ∈ part, m ∈ ms) (hp : p ∈ membersPlaces around part) :
    p.HeldBy ms := by
  obtain ⟨inner, m, hm, hplace⟩ := comesFrom_of_membersPlaces part hsub hp
  have hholds := hm.holds
  cases m with
  | simple name type =>
    cases hplace
    exact .inl rfl
  | variant alternatives => cases hplace
  | range name target constant baseName lengthName =>
    cases hplace
    exact .inr ⟨target, constant, lengthName, hholds⟩

/-- The offsets that are no length of a view, one for each place. -/
theorem fields_of_places (lengthMember : Option String) (ps : List Place) :
    ((ps.flatMap (Place.offsets lengthMember)).filter fun o => o.kind != .rangeLength).map
        SharedOffset.canonical =
      ps.map fun p => dotted p.canonicalParts := by
  induction ps with
  | nil => rfl
  | cons p rest ih =>
    have hone : ((p.offsets lengthMember).filter fun o => o.kind != .rangeLength).map
        SharedOffset.canonical = [dotted p.canonicalParts] := by
      unfold Place.offsets
      split
      · rfl
      · cases lengthMember <;> rfl
    rw [List.flatMap_cons, List.filter_append, List.map_append, hone, ih, List.map_cons,
      List.singleton_append]

theorem nodup_canonical_of_allApart {r : Record} (h : AllApart (Record.places r))
    (hw : r.type.WellNamed) (hbase : ∀ p ∈ Record.places r, p.baseName = p.name) :
    ((Record.places r).map fun p => dotted p.canonicalParts).Nodup := by
  have hparts : ∀ p ∈ Record.places r, dotParts (dotted p.canonicalParts) = p.canonicalParts := by
    intro p hp
    refine dotParts_dotted p.canonicalParts_ne_nil fun part hpart => ?_
    refine dotless_of_isIdentifier (isIdentifier_of_places hw hp ?_)
    rw [Place.canonicalParts, List.mem_append, List.mem_singleton] at hpart
    rw [Place.names, List.mem_append, List.mem_cons, List.mem_cons]
    exact hpart.imp id fun hb => .inr (.inl hb)
  rw [List.nodup_iff_pairwise_ne, List.pairwise_map]
  refine h.imp_of_mem fun {p q} hp hq hapart heq => hapart.ne ?_
  have hcanonical : p.canonicalParts = q.canonicalParts := by
    rw [← hparts p hp, ← hparts q hq, heq]
  rw [Place.canonicalParts, Place.canonicalParts, hbase p hp, hbase q hq] at hcanonical
  rw [Place.generatedParts, Place.generatedParts, hcanonical]

/-- The offsets of a record that is defined have different generated paths, whatever the length member
of views is called. If the names of the record are good, and the canonical field that a range begins
with has the name of the range, its fields have different canonical paths as well. -/
theorem defineRecord_offsets_distinct (s : RecordSettings) (lead : String) (r : Record) (n : Nat)
    (h : (defineRecord s lead r).result = .ok n) (lengthMember : Option String) :
    ((sharedOffsets r.members lengthMember).map SharedOffset.generated).Nodup ∧
    (r.type.WellNamed →
      (∀ name target constant baseName lengthName,
        Holds r.members (.range name target constant baseName lengthName) → baseName = name) →
      (((sharedOffsets r.members lengthMember).filter fun o => o.kind != .rangeLength).map
        SharedOffset.canonical).Nodup) := by
  have hapart := allApart_places h
  rw [sharedOffsets_eq]
  refine ⟨nodup_generated_of_allApart hapart lengthMember, ?_⟩
  intro hw hranges
  rw [fields_of_places]
  refine nodup_canonical_of_allApart hapart hw ?_
  intro p hp
  rcases heldBy_of_membersPlaces r.members (fun _ hm => hm) hp with hsame | ⟨_, _, _, hr⟩
  · exact hsame
  · exact hranges _ _ _ _ _ hr

/-- Two alternatives with fields of the same names, beside a range that is hoisted. -/
def transfer : Record where
  name := "transfer"
  members :=
    [.simple "fd" (.userDefined "fd"),
      .variant
        [.mk (some "read") [.simple "fd" (.int .uint32), .range "data" .void false "data" "data_len"],
          .mk (some "write") [.simple "fd" (.int .uint32), .range "data" .void true "data" "size"],
          .mk none [.range "data" .void true "data" "data_len"]]]

theorem range_of_transfer {name baseName lengthName : String} {target : AbiType} {constant : Bool}
    (h : Holds transfer.members (.range name target constant baseName lengthName)) :
    baseName = name := by
  cases h with
  | here h => simp [transfer] at h
  | inside hv ha h =>
    simp only [transfer, List.mem_cons, reduceCtorEq, Member.variant.injEq, List.not_mem_nil,
      or_false, false_or] at hv
    subst hv
    simp only [List.mem_cons, Alternative.mk.injEq, List.not_mem_nil, or_false] at ha
    rcases ha with ⟨_, rfl⟩ | ⟨_, rfl⟩ | ⟨_, rfl⟩ <;>
    · cases h with
      | here h =>
        simp at h
        exact h.2.2.2.1.trans h.1.symm
      | inside hv _ _ => simp at hv

theorem defineRecord_offsets_distinct_transfer :
    (defineRecord ⟨"cloudabi", "mstd::range", some "_size"⟩ "cloudabi_" transfer).result = .ok 9 ∧
    transfer.type.WellNamed ∧
    (∀ name target constant baseName lengthName,
      Holds transfer.members (.range name target constant baseName lengthName) → baseName = name) ∧
    ((sharedOffsets transfer.members (some "fd.x")).map SharedOffset.generated).Nodup ∧
    (((sharedOffsets transfer.members (some "fd.x")).filter fun o => o.kind != .rangeLength).map
      SharedOffset.canonical).Nodup := by
  have h : (defineRecord ⟨"cloudabi", "mstd::range", some "_size"⟩ "cloudabi_"
      transfer).result = .ok 9 := by rfl
  have hw : transfer.type.WellNamed := (AbiType.badName?_eq_none_iff _).1 (by decide +kernel)
  have hr := fun name target constant baseName lengthName =>
    @range_of_transfer name baseName lengthName target constant
  have hall := defineRecord_offsets_distinct _ _ transfer 9 h (some "fd.x")
  exact ⟨h, hw, hr, hall.1, hall.2 hw hr⟩

end AbiLayout.Cpp
