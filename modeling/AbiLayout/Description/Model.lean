import AbiLayout.Description.NamedPart

/-!
# Models

A model is a description that has been found in order: every name in its types is good, and no two of
its types share a name. It is built from a list of types, which are visited in order: the names of each are
checked, and its own name is bound to its position in an index. The visit ends at the first type at fault.
Types are looked up through the index.
-/

namespace AbiLayout

/-- Why a list of types is no model. -/
inductive ModelError where
  | badName (part : NamedPart)
  | duplicateType (name : String)
deriving DecidableEq, Repr

def ModelError.message : ModelError → String
  | .badName part => part.kind.text ++ " name '" ++ part.name ++ "' is not a valid C identifier"
  | .duplicateType name => "type '" ++ name ++ "' is declared more than once"

/-- The fault of one type, after types of the names `seen`. -/
def AbiType.fault? (seen : List String) (t : AbiType) : Option ModelError :=
  match t.badName? with
  | some part => some (.badName part)
  | none => match t.name? with
    | some name => if seen.contains name then some (.duplicateType name) else none
    | none => none

theorem AbiType.fault?_congr {seen seen' : List String} (t : AbiType) (h : ∀ n, n ∈ seen ↔ n ∈ seen') :
    t.fault? seen = t.fault? seen' := by
  simp only [AbiType.fault?, List.contains_eq_mem, h]

/-- The fault of a list of types, after types of the names `seen`. -/
def typesFault? (seen : List String) : List AbiType → Option ModelError
  | [] => none
  | t :: rest => match t.fault? seen with
    | some e => some e
    | none => typesFault? (t.name?.toList ++ seen) rest

/-- A type without a fault is well named, and its name is new. -/
theorem AbiType.fault?_eq_none_iff (seen : List String) (t : AbiType) :
    t.fault? seen = none ↔ t.WellNamed ∧ ∀ n ∈ t.name?, n ∉ seen := by
  rw [← AbiType.badName?_eq_none_iff, AbiType.fault?]
  cases t.badName? with
  | some part => simp
  | none => cases t.name? with
    | none => simp
    | some name => simp

/-- A list of types is without fault exactly if its types are well named, and their names are new and
pairwise different. -/
theorem typesFault?_eq_none_iff (seen : List String) (types : List AbiType) :
    typesFault? seen types = none ↔
      (∀ t ∈ types, t.WellNamed) ∧ (types.filterMap AbiType.name?).Nodup ∧
        ∀ n ∈ types.filterMap AbiType.name?, n ∉ seen := by
  induction types generalizing seen with
  | nil => simp [typesFault?]
  | cons t rest ih =>
    cases hf : t.fault? seen with
    | some e =>
      have hne : ¬ (t.WellNamed ∧ ∀ n ∈ t.name?, n ∉ seen) := by
        rw [← AbiType.fault?_eq_none_iff, hf]
        simp
      simp only [typesFault?, hf, List.forall_mem_cons]
      constructor
      · intro h
        cases h
      · rintro ⟨⟨hw, _⟩, _, hs⟩
        refine absurd ⟨hw, fun n hn => hs n ?_⟩ hne
        rw [List.mem_filterMap]
        exact ⟨t, List.mem_cons_self .., hn⟩
    | none =>
      have ⟨hw, hs⟩ := (AbiType.fault?_eq_none_iff seen t).1 hf
      simp only [typesFault?, hf, ih, List.forall_mem_cons, hw, true_and]
      cases hn : t.name? with
      | none => simp [hn]
      | some name =>
        have hname : name ∉ seen := hs name hn
        simp only [List.filterMap_cons, hn, Option.toList_some, List.singleton_append,
          List.nodup_cons, List.mem_cons, not_or]
        constructor
        · rintro ⟨ht, hd, hr⟩
          refine ⟨ht, ⟨fun hm => (hr name hm).1 rfl, hd⟩, ?_⟩
          rintro n (rfl | hm)
          · exact hname
          · exact (hr n hm).2
        · rintro ⟨ht, ⟨hm, hd⟩, hr⟩
          exact ⟨ht, hd, fun n hn => ⟨fun he => hm (he ▸ hn), hr n (.inr hn)⟩⟩

/-! ### The index of a list of types -/

/-- Positions under names, in the order in which the names came. -/
abbrev NameIndex : Type := List (String × Nat)

namespace NameIndex

def names (index : NameIndex) : List String := index.map Prod.fst

/-- Binds a name to a position. A name that is bound already is bound anew in its place, and the position
that it had is given back. -/
def bind (name : String) (position : Nat) : NameIndex → Option Nat × NameIndex
  | [] => (none, [(name, position)])
  | (other, former) :: rest =>
    if other = name then (some former, (other, position) :: rest)
    else
      match bind name position rest with
      | (replaced, rest) => (replaced, (other, former) :: rest)

theorem bind_of_mem {index : NameIndex} {name : String} (position : Nat) (h : name ∈ index.names) :
    ∃ former rest, index.bind name position = (some former, rest) := by
  induction index with
  | nil => cases h
  | cons entry rest ih =>
    obtain ⟨other, former⟩ := entry
    rw [bind]
    split
    · exact ⟨former, _, rfl⟩
    · next hne =>
      obtain ⟨found, changed, heq⟩ := ih ((List.mem_cons.1 h).resolve_left (Ne.symm hne))
      exact ⟨found, _, by rw [heq]⟩

theorem bind_of_new {index : NameIndex} {name : String} (position : Nat) (h : name ∉ index.names) :
    index.bind name position = (none, index ++ [(name, position)]) := by
  induction index with
  | nil => rfl
  | cons entry rest ih =>
    obtain ⟨other, former⟩ := entry
    have hne : other ≠ name := fun heq => h (heq ▸ List.mem_cons_self ..)
    rw [bind, if_neg hne, ih fun hmem => h (List.mem_cons_of_mem _ hmem)]
    rfl

end NameIndex

/-- Visits types from a position on. Each has its names checked and its own name bound to its position; the
visit ends at a bad name, or where a name was bound before. -/
def indexTypes (position : Nat) (index : NameIndex) : List AbiType → Except ModelError NameIndex
  | [] => .ok index
  | t :: rest =>
    match t.badName? with
    | some part => .error (.badName part)
    | none =>
      match t.name? with
      | none => indexTypes (position + 1) index rest
      | some name =>
        match index.bind name position with
        | (some _, _) => .error (.duplicateType name)
        | (none, index) => indexTypes (position + 1) index rest

/-- One visit: it ends with the fault of the type, or goes on with its name behind those bound before. -/
theorem indexTypes_cons (position : Nat) (index : NameIndex) (t : AbiType) (rest : List AbiType) :
    indexTypes position index (t :: rest) =
      match t.fault? index.names with
      | some e => .error e
      | none => indexTypes (position + 1) (index ++ t.name?.toList.map fun n => (n, position)) rest := by
  rw [indexTypes, AbiType.fault?]
  cases t.badName? with
  | some part => rfl
  | none =>
    cases t.name? with
    | none => simp
    | some name =>
      by_cases h : name ∈ index.names
      · obtain ⟨former, changed, heq⟩ := NameIndex.bind_of_mem position h
        simp [heq, h]
      · simp [NameIndex.bind_of_new position h, h]

theorem indexTypes_eq_error_iff {position : Nat} {index : NameIndex} {seen : List String}
    (types : List AbiType) (e : ModelError) (hseen : ∀ n, n ∈ seen ↔ n ∈ index.names) :
    indexTypes position index types = .error e ↔ typesFault? seen types = some e := by
  induction types generalizing position index seen with
  | nil => simp [indexTypes, typesFault?]
  | cons t rest ih =>
    rw [indexTypes_cons, typesFault?, t.fault?_congr hseen]
    cases t.fault? index.names with
    | some fault => simp
    | none =>
      refine ih fun n => ?_
      rw [List.mem_append, hseen, NameIndex.names, NameIndex.names, List.map_append, List.mem_append]
      simp [or_comm]

/-- From the start the visit ends with the first fault of the list. -/
theorem indexTypes_start_eq_error_iff (types : List AbiType) (e : ModelError) :
    indexTypes 0 [] types = .error e ↔ typesFault? [] types = some e :=
  indexTypes_eq_error_iff types e fun _ => Iff.rfl

/-- A complete description in declaration order, with the index of its names. -/
structure Model where
  name : String
  types : List AbiType
  index : NameIndex
  indexed : indexTypes 0 [] types = .ok index

namespace Model

theorem typesFault?_eq_none (m : Model) : typesFault? [] m.types = none := by
  rw [Option.eq_none_iff_forall_ne_some]
  intro e he
  have herror := (indexTypes_start_eq_error_iff m.types e).2 he
  rw [m.indexed] at herror
  cases herror

theorem wellNamed (m : Model) : ∀ t ∈ m.types, t.WellNamed :=
  ((typesFault?_eq_none_iff [] m.types).1 m.typesFault?_eq_none).1

theorem distinct (m : Model) : (m.types.filterMap AbiType.name?).Nodup :=
  ((typesFault?_eq_none_iff [] m.types).1 m.typesFault?_eq_none).2.1

theorem indexed_of_no_fault {types : List AbiType} (h : typesFault? [] types = none) :
    indexTypes 0 [] types = .ok ((indexTypes 0 [] types).toOption.getD []) := by
  cases hindex : indexTypes 0 [] types with
  | error e =>
    rw [indexTypes_start_eq_error_iff, h] at hindex
    cases hindex
  | ok index => rfl

/-- The model of types without fault. -/
def ofTypes (name : String) (types : List AbiType) (h : typesFault? [] types = none) : Model where
  name := name
  types := types
  index := (indexTypes 0 [] types).toOption.getD []
  indexed := indexed_of_no_fault h

/-- The model of a list of types, or the first fault that keeps it from being one. -/
def build (name : String) (types : List AbiType) : Except ModelError Model :=
  match hindex : indexTypes 0 [] types with
  | .error e => .error e
  | .ok index => .ok ⟨name, types, index, hindex⟩

theorem build_self (m : Model) : build m.name m.types = .ok m := by
  unfold build
  split
  · next e he =>
    rw [m.indexed] at he
    cases he
  · next index hindex =>
    have hsame := Except.ok.inj (m.indexed.symm.trans hindex)
    subst hsame
    rfl

theorem build_eq_ok_iff (name : String) (types : List AbiType) (m : Model) :
    build name types = .ok m ↔ m.name = name ∧ m.types = types := by
  constructor
  · intro h
    unfold build at h
    split at h
    · cases h
    · cases h
      exact ⟨rfl, rfl⟩
  · rintro ⟨rfl, rfl⟩
    exact m.build_self

theorem build_eq_error_iff (name : String) (types : List AbiType) (e : ModelError) :
    build name types = .error e ↔ typesFault? [] types = some e := by
  rw [← indexTypes_start_eq_error_iff]
  unfold build
  split
  · next fault hfault => rw [hfault, Except.error.injEq, Except.error.injEq]
  · next index hindex => simp [hindex]

theorem exists_build_iff (name : String) (types : List AbiType) :
    (∃ m, build name types = .ok m) ↔ typesFault? [] types = none := by
  constructor
  · rintro ⟨m, hm⟩
    obtain ⟨_, rfl⟩ := (build_eq_ok_iff name types m).1 hm
    exact m.typesFault?_eq_none
  · intro h
    exact ⟨_, (ofTypes name types h).build_self⟩

def get? (m : Model) (name : String) : Option AbiType :=
  (m.index.lookup name).bind fun i => m.types[i]?

def records (m : Model) : List Record := m.types.filterMap AbiType.record?

end Model

end AbiLayout
