import AbiLayout.Cpp.Outline

/-!
# Scopes and the fields in them

What a scope declares, as a relation, and the fields of a record in the order of their lines, each with
the scopes that it stands in. Main statements: the names collected from a member list are those that its
scope declares, and the outline of a record declares the fields of its sites.
-/

namespace AbiLayout.Cpp

/-- The scope of a member list declares an identifier: for a field, for a named alternative, or hoisted
from an alternative without a name. What stands inside a named alternative is not declared here. -/
inductive Declares : List Member → String → Prop where
  | simple {ms : List Member} {name : String} {type : AbiType} (h : .simple name type ∈ ms) :
    Declares ms (mangle name)
  | range {ms : List Member} {name baseName lengthName : String} {target : AbiType} {constant : Bool}
    (h : .range name target constant baseName lengthName ∈ ms) : Declares ms (mangle name)
  | nested {ms inner : List Member} {alternatives : List Alternative} {name : String}
    (hv : .variant alternatives ∈ ms) (ha : .mk (some name) inner ∈ alternatives) :
    Declares ms (mangle name)
  | hoisted {ms inner : List Member} {alternatives : List Alternative} {x : String}
    (hv : .variant alternatives ∈ ms) (ha : .mk none inner ∈ alternatives) (h : Declares inner x) :
    Declares ms x

theorem declaredNames_eq_flatMap (ms : List Member) : declaredNames ms = ms.flatMap memberNames := by
  induction ms with
  | nil => rfl
  | cons m rest ih => rw [declaredNames, List.flatMap_cons, ih]

theorem alternativesNames_eq_flatMap (as : List Alternative) :
    alternativesNames as = as.flatMap alternativeNames := by
  induction as with
  | nil => rfl
  | cons a rest ih => rw [alternativesNames, List.flatMap_cons, ih]

-- The walk goes through a part of a member list, but what it finds is declared by the whole list.
mutual

theorem declares_of_member {ms : List Member} {x : String} (m : Member) (hm : m ∈ ms)
    (hx : x ∈ memberNames m) : Declares ms x := by
  cases m with
  | simple name type =>
    rw [memberNames, List.mem_singleton] at hx
    rw [hx]
    exact .simple hm
  | variant alternatives =>
    rw [memberNames] at hx
    exact declares_of_alternatives alternatives hm (fun _ ha => ha) hx
  | range name target constant baseName lengthName =>
    rw [memberNames, List.mem_singleton] at hx
    rw [hx]
    exact .range hm
termination_by structural m

theorem declares_of_members {ms : List Member} {x : String} (part : List Member)
    (hsub : ∀ m ∈ part, m ∈ ms) (hx : x ∈ declaredNames part) : Declares ms x := by
  cases part with
  | nil => simp [declaredNames] at hx
  | cons m rest =>
    rw [declaredNames, List.mem_append] at hx
    rcases hx with hx | hx
    · exact declares_of_member m (hsub m (List.mem_cons_self ..)) hx
    · exact declares_of_members rest (fun n hn => hsub n (List.mem_cons_of_mem _ hn)) hx
termination_by structural part

theorem declares_of_alternative {ms : List Member} {all : List Alternative} {x : String}
    (a : Alternative) (hv : .variant all ∈ ms) (ha : a ∈ all) (hx : x ∈ alternativeNames a) :
    Declares ms x := by
  match a with
  | .mk none members =>
    -- the members are those of a list of their own, so the walk starts anew inside
    rw [alternativeNames] at hx
    exact .hoisted hv ha (declares_of_members members (fun _ hm => hm) hx)
  | .mk (some name) members =>
    rw [alternativeNames, List.mem_singleton] at hx
    rw [hx]
    exact .nested hv ha
termination_by structural a

theorem declares_of_alternatives {ms : List Member} {all : List Alternative} {x : String}
    (part : List Alternative) (hv : .variant all ∈ ms) (hsub : ∀ a ∈ part, a ∈ all)
    (hx : x ∈ alternativesNames part) : Declares ms x := by
  cases part with
  | nil => simp [alternativesNames] at hx
  | cons a rest =>
    rw [alternativesNames, List.mem_append] at hx
    rcases hx with hx | hx
    · exact declares_of_alternative a hv (hsub a (List.mem_cons_self ..)) hx
    · exact declares_of_alternatives rest hv (fun b hb => hsub b (List.mem_cons_of_mem _ hb)) hx
termination_by structural part

end

theorem Declares.mem_declaredNames {ms : List Member} {x : String} (h : Declares ms x) :
    x ∈ declaredNames ms := by
  induction h with
  | simple h =>
    rw [declaredNames_eq_flatMap, List.mem_flatMap]
    exact ⟨_, h, List.mem_singleton.2 rfl⟩
  | range h =>
    rw [declaredNames_eq_flatMap, List.mem_flatMap]
    exact ⟨_, h, List.mem_singleton.2 rfl⟩
  | nested hv ha =>
    rw [declaredNames_eq_flatMap, List.mem_flatMap]
    refine ⟨_, hv, ?_⟩
    rw [memberNames, alternativesNames_eq_flatMap, List.mem_flatMap]
    exact ⟨_, ha, List.mem_singleton.2 rfl⟩
  | hoisted hv ha _ ih =>
    rw [declaredNames_eq_flatMap, List.mem_flatMap]
    refine ⟨_, hv, ?_⟩
    rw [memberNames, alternativesNames_eq_flatMap, List.mem_flatMap]
    exact ⟨_, ha, ih⟩

/-- The names collected from a member list are those that its scope declares. -/
theorem mem_declaredNames_iff (ms : List Member) (x : String) :
    x ∈ declaredNames ms ↔ Declares ms x :=
  ⟨declares_of_members ms fun _ hm => hm, Declares.mem_declaredNames⟩

/-! ### Sites of fields -/

/-- A member that becomes one field: a simple one, or a range as a view of its target. -/
inductive FieldMember where
  | simple (name : String) (type : AbiType)
  | range (name : String) (target : AbiType) (constant : Bool)

namespace FieldMember

def type : FieldMember → AbiType
  | simple _ type => type
  | range _ target _ => target

def declaration (viewType : String) (spelling : Spelling) : FieldMember → Except RenderError String
  | simple name type => spelling.declaration type (mangle name)
  | range name target constant => do
    return rangeDeclaration viewType (← spelling.spell target) constant (mangle name)

end FieldMember

/-- A field with the scopes around it, the innermost first. -/
structure Site where
  field : FieldMember
  scopes : List (List Member)

/-- An identifier is visible at a site if one of the scopes around it declares it. -/
def Site.Visible (p : Site) (x : String) : Prop := ∃ scope ∈ p.scopes, Declares scope x

mutual

def memberSites (scopes : List (List Member)) : Member → List Site
  | .simple name type => [⟨.simple name type, scopes⟩]
  | .variant alternatives => alternativesSites scopes alternatives
  | .range name target constant _ _ => [⟨.range name target constant, scopes⟩]

def membersSites (scopes : List (List Member)) : List Member → List Site
  | [] => []
  | m :: rest => memberSites scopes m ++ membersSites scopes rest

/-- A named alternative is a scope inside those around it; one without a name opens none. -/
def alternativeSites (scopes : List (List Member)) : Alternative → List Site
  | .mk none members => membersSites scopes members
  | .mk (some _) members => membersSites (members :: scopes) members

def alternativesSites (scopes : List (List Member)) : List Alternative → List Site
  | [] => []
  | a :: rest => alternativeSites scopes a ++ alternativesSites scopes rest

end

/-- The sites of a record, in the order of its lines. -/
def Record.sites (r : Record) : List Site := membersSites [r.members] r.members

end AbiLayout.Cpp
