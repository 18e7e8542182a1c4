import AbiLayout.Cpp.SharedOffset
import AbiLayout.Description.NamedPart
import Mathlib.Data.List.Induction

/-!
# Places of fields

A field is reached through the named alternatives around it, so its place in a record is a list of
names; both paths of a shared offset are such lists written with dots. Main statements: the shared
offsets of a member list are those of its places, a path without dots in its names determines them, and
the names on the way to a field are names of the description.
-/

namespace AbiLayout.Cpp

/-! ### Dotted paths -/

def dotted (parts : List String) : String := ".".intercalate parts

/-- What stands between the dots of a path. -/
def dotParts (path : String) : List String := (path.toList.splitOn '.').map String.ofList

theorem dotted_append {a b : List String} (ha : a ≠ []) (hb : b ≠ []) :
    dotted (a ++ b) = dotted a ++ "." ++ dotted b :=
  String.intercalate_append_of_ne_nil ha hb

theorem dotParts_append_dot (a b : String) :
    dotParts (a ++ "." ++ b) = dotParts a ++ dotParts b := by
  have hlist : (a ++ "." ++ b).toList = a.toList ++ '.' :: b.toList := by
    simp [String.toList_append]
  rw [dotParts, hlist, List.splitOn_eq_splitOnP, List.splitOnP_append_cons _ _ (by decide),
    List.map_append]
  simp only [dotParts, List.splitOn_eq_splitOnP]

theorem dotParts_of_dotless {part : String} (h : '.' ∉ part.toList) : dotParts part = [part] := by
  have hall : ∀ c ∈ part.toList, (c == '.') = false := by
    intro c hc
    rw [beq_eq_false_iff_ne]
    rintro rfl
    exact h hc
  rw [dotParts, List.splitOn_eq_splitOnP, List.splitOnP_eq_singleton hall]
  simp

/-- Names without dots are what a path of them has between its dots. -/
theorem dotParts_dotted {parts : List String} (hne : parts ≠ [])
    (h : ∀ part ∈ parts, '.' ∉ part.toList) : dotParts (dotted parts) = parts := by
  induction parts with
  | nil => exact absurd rfl hne
  | cons part rest ih =>
    have hpart := dotParts_of_dotless (h part (List.mem_cons_self ..))
    cases rest with
    | nil =>
      have hone : dotted [part] = part := String.intercalate_singleton
      rw [hone, hpart]
    | cons next rest =>
      have hrest := ih (by simp) fun q hq => h q (List.mem_cons_of_mem _ hq)
      have hsplit : dotted (part :: next :: rest) = part ++ "." ++ dotted (next :: rest) :=
        String.intercalate_cons_cons
      rw [hsplit, dotParts_append_dot, hpart, hrest, List.singleton_append]

/-! ### Places -/

/-- A field by the names that lead to it, the outermost first, and the names of its canonical fields:
a simple member has one, under its own name, and a range has a second for its length. -/
structure Place where
  around : List String
  name : String
  baseName : String
  lengthName : Option String
deriving DecidableEq, Repr

namespace Place

def generatedParts (p : Place) : List String := (p.around ++ [p.name]).map mangle

def canonicalParts (p : Place) : List String := p.around ++ [p.baseName]

/-- The names that the description gives for a place. -/
def names (p : Place) : List String := p.around ++ p.name :: p.baseName :: p.lengthName.toList

def offsets (lengthMember : Option String) (p : Place) : List SharedOffset :=
  match p.lengthName with
  | none => [⟨dotted p.generatedParts, dotted p.canonicalParts, .field⟩]
  | some lengthName =>
    ⟨dotted p.generatedParts, dotted p.canonicalParts, .rangeBase⟩ ::
      match lengthMember with
      | none => []
      | some m =>
        [⟨dotted p.generatedParts ++ "." ++ m, dotted (p.around ++ [lengthName]), .rangeLength⟩]

end Place

mutual

def memberPlaces (around : List String) : Member → List Place
  | .simple name _ => [⟨around, name, name, none⟩]
  | .variant alternatives => alternativesPlaces around alternatives
  | .range name _ _ baseName lengthName => [⟨around, name, baseName, some lengthName⟩]

/-- The places of the fields of a member list that stands inside the named alternatives `around`. -/
def membersPlaces (around : List String) : List Member → List Place
  | [] => []
  | m :: rest => memberPlaces around m ++ membersPlaces around rest

def alternativePlaces (around : List String) : Alternative → List Place
  | .mk none members => membersPlaces around members
  | .mk (some name) members => membersPlaces (around ++ [name]) members

def alternativesPlaces (around : List String) : List Alternative → List Place
  | [] => []
  | a :: rest => alternativePlaces around a ++ alternativesPlaces around rest

end

def Record.places (r : Record) : List Place := membersPlaces [] r.members

/-! ### The offsets of the places -/

namespace DualPath

/-- The path into several named alternatives, one inside the other. -/
def through (around : List String) : DualPath := around.foldl into root

theorem through_concat (around : List String) (name : String) :
    through (around ++ [name]) = (through around).into name := by
  simp [through]

theorem generated_through (around : List String) (name : String) :
    (through around).generated name = dotted ((around ++ [name]).map mangle) := by
  induction around using List.reverseRecOn generalizing name with
  | nil => exact (String.empty_append).trans String.intercalate_singleton.symm
  | append_singleton rest last ih =>
    have hlast : (through rest).generatedLead ++ mangle last = dotted ((rest ++ [last]).map mangle) :=
      ih last
    have hne : (rest ++ [last]).map mangle ≠ [] := by simp
    rw [through_concat, List.map_append, List.map_singleton, dotted_append hne (by simp), ← hlast]
    show (through rest).generatedLead ++ mangle last ++ "." ++ mangle name = _
    rw [dotted, String.intercalate_singleton]

theorem canonical_through (around : List String) (name : String) :
    (through around).canonical name = dotted (around ++ [name]) := by
  induction around using List.reverseRecOn generalizing name with
  | nil => exact (String.empty_append).trans String.intercalate_singleton.symm
  | append_singleton rest last ih =>
    have hlast : (through rest).canonicalLead ++ last = dotted (rest ++ [last]) := ih last
    rw [through_concat, dotted_append (by simp) (by simp), ← hlast]
    show (through rest).canonicalLead ++ last ++ "." ++ name = _
    rw [dotted, String.intercalate_singleton]

end DualPath

section

variable (lengthMember : Option String)

mutual

theorem memberOffsets_eq (around : List String) (m : Member) :
    memberOffsets (.through around) lengthMember m =
      (memberPlaces around m).flatMap (Place.offsets lengthMember) := by
  cases m with
  | simple name type =>
    rw [memberOffsets, memberPlaces, DualPath.generated_through, DualPath.canonical_through]
    rfl
  | variant alternatives =>
    rw [memberOffsets, memberPlaces, alternativesOffsets_eq around alternatives]
  | range name target constant baseName lengthName =>
    rw [memberPlaces, List.flatMap_singleton]
    cases lengthMember <;>
      simp only [memberOffsets, rangeOffsets, DualPath.generated_through,
        DualPath.canonical_through] <;> rfl

theorem membersOffsets_eq (around : List String) (ms : List Member) :
    membersOffsets (.through around) lengthMember ms =
      (membersPlaces around ms).flatMap (Place.offsets lengthMember) := by
  cases ms with
  | nil => rfl
  | cons m rest =>
    rw [membersOffsets, membersPlaces, List.flatMap_append, memberOffsets_eq around m,
      membersOffsets_eq around rest]

theorem alternativeOffsets_eq (around : List String) (a : Alternative) :
    alternativeOffsets (.through around) lengthMember a =
      (alternativePlaces around a).flatMap (Place.offsets lengthMember) := by
  match a with
  | .mk none members =>
    rw [alternativeOffsets, alternativePlaces, membersOffsets_eq around members]
  | .mk (some name) members =>
    rw [alternativeOffsets, alternativePlaces, ← DualPath.through_concat,
      membersOffsets_eq (around ++ [name]) members]

theorem alternativesOffsets_eq (around : List String) (as : List Alternative) :
    alternativesOffsets (.through around) lengthMember as =
      (alternativesPlaces around as).flatMap (Place.offsets lengthMember) := by
  cases as with
  | nil => rfl
  | cons a rest =>
    rw [alternativesOffsets, alternativesPlaces, List.flatMap_append, alternativeOffsets_eq around a,
      alternativesOffsets_eq around rest]

end

/-- The shared offsets of a record are those of its places, in the same order. -/
theorem sharedOffsets_eq (r : Record) :
    sharedOffsets r.members lengthMember = (Record.places r).flatMap (Place.offsets lengthMember) :=
  membersOffsets_eq lengthMember [] r.members

end

/-! ### The offsets of one place -/

namespace Place

section

variable (p : Place)

def fieldOffset : SharedOffset := ⟨dotted p.generatedParts, dotted p.canonicalParts, .field⟩

def baseOffset : SharedOffset := ⟨dotted p.generatedParts, dotted p.canonicalParts, .rangeBase⟩

/-- The offset of a view's length, whose member is `m`, against the length field. -/
def lengthOffset (m lengthName : String) : SharedOffset :=
  ⟨dotted p.generatedParts ++ "." ++ m, dotted (p.around ++ [lengthName]), .rangeLength⟩

end

section

variable {p : Place} {lengthName : String}

theorem offsets_of_simple (h : p.lengthName = none) (lengthMember : Option String) :
    p.offsets lengthMember = [p.fieldOffset] := by
  rw [offsets, h]
  rfl

theorem offsets_none_of_range (h : p.lengthName = some lengthName) : p.offsets none = [p.baseOffset] := by
  rw [offsets, h]
  rfl

theorem offsets_some_of_range (h : p.lengthName = some lengthName) (m : String) :
    p.offsets (some m) = [p.baseOffset, p.lengthOffset m lengthName] := by
  rw [offsets, h]
  rfl

/-- A simple member has one offset; a range has that of its base, and with a known length member one more. -/
theorem mem_offsets_cases {lengthMember : Option String} {o : SharedOffset} (ho : o ∈ p.offsets lengthMember) :
    (p.lengthName = none ∧ o = p.fieldOffset) ∨
      ∃ lengthName, p.lengthName = some lengthName ∧
        (o = p.baseOffset ∨ ∃ m, lengthMember = some m ∧ o = p.lengthOffset m lengthName) := by
  cases hlength : p.lengthName with
  | none =>
    rw [offsets_of_simple hlength, List.mem_singleton] at ho
    exact .inl ⟨rfl, ho⟩
  | some lengthName =>
    refine .inr ⟨lengthName, rfl, ?_⟩
    cases lengthMember with
    | none =>
      rw [offsets_none_of_range hlength, List.mem_singleton] at ho
      exact .inl ho
    | some m =>
      rw [offsets_some_of_range hlength, List.mem_cons, List.mem_singleton] at ho
      exact ho.imp id fun ho => ⟨m, rfl, ho⟩

end

end Place

/-! ### The names on the way to a field -/

/-- A name that has to be an identifier on its own. -/
def StandsAlone (parts : List NamedPart) (name : String) : Prop :=
  ⟨.member, name⟩ ∈ parts ∨ ⟨.alternative, name⟩ ∈ parts

theorem StandsAlone.mono {parts more : List NamedPart} {name : String} (h : StandsAlone parts name)
    (hsub : parts ⊆ more) : StandsAlone more name :=
  h.imp (fun hm => hsub hm) fun ha => hsub ha

mutual

theorem standsAlone_of_memberPlaces {around : List String} {p : Place} {n : String} (m : Member)
    (hp : p ∈ memberPlaces around m) (hn : n ∈ p.names) : n ∈ around ∨ StandsAlone m.names n := by
  cases m with
  | simple name type =>
    rw [memberPlaces, List.mem_singleton] at hp
    subst hp
    simp only [Place.names, List.mem_append, List.mem_cons, Option.toList_none, List.not_mem_nil,
      or_false, or_self] at hn
    refine hn.imp id fun h => ?_
    rw [h, Member.names]
    exact .inl (List.mem_cons_self ..)
  | variant alternatives =>
    rw [memberPlaces] at hp
    rw [Member.names]
    exact standsAlone_of_alternativesPlaces alternatives hp hn
  | range name target constant baseName lengthName =>
    rw [memberPlaces, List.mem_singleton] at hp
    subst hp
    simp only [Place.names, List.mem_append, List.mem_cons, Option.toList_some, List.not_mem_nil,
      or_false] at hn
    refine hn.imp id fun h => .inl ?_
    rw [Member.names]
    rcases h with rfl | rfl | rfl <;> simp

theorem standsAlone_of_membersPlaces {around : List String} {p : Place} {n : String}
    (ms : List Member) (hp : p ∈ membersPlaces around ms) (hn : n ∈ p.names) :
    n ∈ around ∨ StandsAlone (membersNamedParts ms) n := by
  cases ms with
  | nil => simp [membersPlaces] at hp
  | cons m rest =>
    rw [membersPlaces, List.mem_append] at hp
    rw [membersNamedParts]
    rcases hp with hp | hp
    · have h := standsAlone_of_memberPlaces m hp hn
      exact h.imp id fun h => h.mono (List.subset_append_left ..)
    · have h := standsAlone_of_membersPlaces rest hp hn
      exact h.imp id fun h => h.mono (List.subset_append_right ..)

theorem standsAlone_of_alternativePlaces {around : List String} {p : Place} {n : String}
    (a : Alternative) (hp : p ∈ alternativePlaces around a) (hn : n ∈ p.names) :
    n ∈ around ∨ StandsAlone a.names n := by
  match a with
  | .mk none members =>
    rw [alternativePlaces] at hp
    rw [Alternative.names]
    exact standsAlone_of_membersPlaces members hp hn
  | .mk (some name) members =>
    rw [alternativePlaces] at hp
    rw [Alternative.names]
    have h := standsAlone_of_membersPlaces members hp hn
    -- the name of the alternative is among those around its members, and it stands alone as well
    rw [List.mem_append, List.mem_singleton, or_assoc] at h
    refine h.imp id fun h => ?_
    rcases h with rfl | h
    · exact .inr (List.mem_cons_self ..)
    · exact h.mono (List.subset_cons_self ..)

theorem standsAlone_of_alternativesPlaces {around : List String} {p : Place} {n : String}
    (as : List Alternative) (hp : p ∈ alternativesPlaces around as) (hn : n ∈ p.names) :
    n ∈ around ∨ StandsAlone (alternativesNamedParts as) n := by
  cases as with
  | nil => simp [alternativesPlaces] at hp
  | cons a rest =>
    rw [alternativesPlaces, List.mem_append] at hp
    rw [alternativesNamedParts]
    rcases hp with hp | hp
    · have h := standsAlone_of_alternativePlaces a hp hn
      exact h.imp id fun h => h.mono (List.subset_append_left ..)
    · have h := standsAlone_of_alternativesPlaces rest hp hn
      exact h.imp id fun h => h.mono (List.subset_append_right ..)

end

/-- In a well-named list of members, every name on the way to a field is an identifier. -/
theorem isIdentifier_of_membersPlaces {ms : List Member} (hms : ∀ p ∈ membersNamedParts ms, p.isGood = true)
    {p : Place} (hp : p ∈ membersPlaces [] ms) {n : String} (hn : n ∈ p.names) :
    Text.isIdentifier n = true := by
  have h := standsAlone_of_membersPlaces ms hp hn
  rcases h with h | h | h
  · exact absurd h List.not_mem_nil
  · exact hms ⟨.member, n⟩ h
  · exact hms ⟨.alternative, n⟩ h

theorem isIdentifier_of_places {r : Record} (hw : r.type.WellNamed) {p : Place}
    (hp : p ∈ Record.places r) {n : String} (hn : n ∈ p.names) : Text.isIdentifier n = true := by
  refine isIdentifier_of_membersPlaces ?_ hp hn
  intro part hpart
  have hin : part ∈ r.type.names := by
    show part ∈ (AbiType.record r.name r.members).names
    rw [AbiType.names]
    exact List.mem_cons_of_mem _ hpart
  exact hw part hin

end AbiLayout.Cpp
