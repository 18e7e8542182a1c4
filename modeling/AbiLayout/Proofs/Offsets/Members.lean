import AbiLayout.Proofs.Offsets.Places

/-!
# Members behind places

Main statement: a place is that of a member, which stands in the list inside the named alternatives that lead
to the place; without a length it is that of a simple member, and with one that of a range.
-/

namespace AbiLayout.Cpp

/-- The member stands in the list inside the alternatives of the names `around`, the outermost first.
Alternatives without a name may lie on the way. -/
inductive Stands : List Member → List String → Member → Prop where
  | here {ms : List Member} {m : Member} (h : m ∈ ms) : Stands ms [] m
  | hoisted {ms inner : List Member} {alternatives : List Alternative} {around : List String} {m : Member}
    (hv : .variant alternatives ∈ ms) (ha : .mk none inner ∈ alternatives) (h : Stands inner around m) :
    Stands ms around m
  | nested {ms inner : List Member} {alternatives : List Alternative} {name : String}
    {around : List String} {m : Member} (hv : .variant alternatives ∈ ms)
    (ha : .mk (some name) inner ∈ alternatives) (h : Stands inner around m) : Stands ms (name :: around) m

/-- The place of a member that stands inside the alternatives `around`; a variant is no field. -/
def placeAt? (around : List String) : Member → Option Place
  | .simple name _ => some ⟨around, name, name, none⟩
  | .variant _ => none
  | .range name _ _ baseName lengthName => some ⟨around, name, baseName, some lengthName⟩

/-- The place is that of a member of the list, seen from inside the alternatives `around`. -/
def Place.ComesFrom (p : Place) (around : List String) (ms : List Member) : Prop :=
  ∃ inner m, Stands ms inner m ∧ placeAt? (around ++ inner) m = some p

theorem Place.comesFrom_of_mem {p : Place} {around : List String} {ms : List Member} {m : Member}
    (hm : m ∈ ms) (hp : placeAt? around m = some p) : p.ComesFrom around ms :=
  ⟨[], m, .here hm, by rwa [List.append_nil]⟩

mutual

theorem comesFrom_of_memberPlaces {around : List String} {p : Place} {ms : List Member} (m : Member)
    (hm : m ∈ ms) (hp : p ∈ memberPlaces around m) : p.ComesFrom around ms := by
  cases m with
  | simple name type =>
    rw [memberPlaces, List.mem_singleton] at hp
    exact Place.comesFrom_of_mem hm (congrArg some hp.symm)
  | variant alternatives =>
    rw [memberPlaces] at hp
    exact comesFrom_of_alternativesPlaces alternatives hm (fun _ ha => ha) hp
  | range name target constant baseName lengthName =>
    rw [memberPlaces, List.mem_singleton] at hp
    exact Place.comesFrom_of_mem hm (congrArg some hp.symm)
termination_by structural m

theorem comesFrom_of_membersPlaces {around : List String} {p : Place} {ms : List Member}
    (part : List Member) (hsub : ∀ m ∈ part, m ∈ ms) (hp : p ∈ membersPlaces around part) :
    p.ComesFrom around ms := by
  cases part with
  | nil => simp [membersPlaces] at hp
  | cons m rest =>
    rw [membersPlaces, List.mem_append] at hp
    rcases hp with hp | hp
    · exact comesFrom_of_memberPlaces m (hsub m (List.mem_cons_self ..)) hp
    · exact comesFrom_of_membersPlaces rest (fun n hn => hsub n (List.mem_cons_of_mem _ hn)) hp
termination_by structural part

theorem comesFrom_of_alternativePlaces {around : List String} {p : Place} {ms : List Member}
    {all : List Alternative} (a : Alternative) (hv : .variant all ∈ ms) (ha : a ∈ all)
    (hp : p ∈ alternativePlaces around a) : p.ComesFrom around ms := by
  match a with
  | .mk none members =>
    rw [alternativePlaces] at hp
    obtain ⟨inner, m, hm, hplace⟩ := comesFrom_of_membersPlaces members (fun _ hm => hm) hp
    exact ⟨inner, m, .hoisted hv ha hm, hplace⟩
  | .mk (some name) members =>
    rw [alternativePlaces] at hp
    obtain ⟨inner, m, hm, hplace⟩ := comesFrom_of_membersPlaces members (fun _ hm => hm) hp
    rw [List.append_assoc, List.singleton_append] at hplace
    exact ⟨name :: inner, m, .nested hv ha hm, hplace⟩
termination_by structural a

theorem comesFrom_of_alternativesPlaces {around : List String} {p : Place} {ms : List Member}
    {all : List Alternative} (part : List Alternative) (hv : .variant all ∈ ms)
    (hsub : ∀ a ∈ part, a ∈ all) (hp : p ∈ alternativesPlaces around part) : p.ComesFrom around ms := by
  cases part with
  | nil => simp [alternativesPlaces] at hp
  | cons a rest =>
    rw [alternativesPlaces, List.mem_append] at hp
    rcases hp with hp | hp
    · exact comesFrom_of_alternativePlaces a hv (hsub a (List.mem_cons_self ..)) hp
    · exact comesFrom_of_alternativesPlaces rest hv (fun b hb => hsub b (List.mem_cons_of_mem _ hb)) hp
termination_by structural part

end

section

variable {ms : List Member} {p : Place}

/-- A place without a length is that of a simple member, which has one name on both sides. -/
theorem simple_of_membersPlaces (hp : p ∈ membersPlaces [] ms) (hlength : p.lengthName = none) :
    p.baseName = p.name ∧ ∃ type, Stands ms p.around (.simple p.name type) := by
  obtain ⟨around, m, hm, hplace⟩ := comesFrom_of_membersPlaces ms (fun _ h => h) hp
  rw [List.nil_append] at hplace
  cases m with
  | simple name type =>
    cases hplace
    exact ⟨rfl, type, hm⟩
  | variant alternatives => cases hplace
  | range name target constant baseName lengthName =>
    cases hplace
    cases hlength

/-- A place with a length is that of a range. -/
theorem range_of_membersPlaces (hp : p ∈ membersPlaces [] ms) {lengthName : String}
    (hlength : p.lengthName = some lengthName) :
    ∃ target constant, Stands ms p.around (.range p.name target constant p.baseName lengthName) := by
  obtain ⟨around, m, hm, hplace⟩ := comesFrom_of_membersPlaces ms (fun _ h => h) hp
  rw [List.nil_append] at hplace
  cases m with
  | simple name type =>
    cases hplace
    cases hlength
  | variant alternatives => cases hplace
  | range name target constant baseName other =>
    cases hplace
    cases hlength
    exact ⟨target, constant, hm⟩

end

end AbiLayout.Cpp
