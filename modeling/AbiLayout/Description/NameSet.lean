/-!
# Sets of names

A finite set of names, kept as the list of its members in the order of their characters. The order is
what answers show, and the list determines the set, so equal sets are equal lists.
-/

namespace AbiLayout

/-- A set of names in ascending order. -/
structure NameSet where
  names : List String
  ascending : names.Pairwise (· < ·)

namespace NameSet

def empty : NameSet := ⟨[], .nil⟩

def insertInto (name : String) : List String → List String
  | [] => [name]
  | n :: rest =>
    if name < n then name :: n :: rest
    else if name = n then n :: rest
    else n :: insertInto name rest

theorem mem_insertInto (name m : String) (names : List String) :
    m ∈ insertInto name names ↔ m = name ∨ m ∈ names := by
  induction names with
  | nil => simp [insertInto]
  | cons n rest ih =>
    rw [insertInto]
    split
    · simp
    · split
      · next h => simp [h]
      · simp only [List.mem_cons, ih]
        exact or_left_comm

theorem ascending_insertInto (name : String) (names : List String)
    (h : names.Pairwise (· < ·)) : (insertInto name names).Pairwise (· < ·) := by
  induction names with
  | nil => simp [insertInto]
  | cons n rest ih =>
    have ⟨hn, hr⟩ := List.pairwise_cons.1 h
    rw [insertInto]
    split
    · next hlt =>
      refine List.pairwise_cons.2 ⟨fun m hm => ?_, h⟩
      rcases List.mem_cons.1 hm with rfl | hm
      · exact hlt
      · exact String.lt_trans hlt (hn m hm)
    · split
      · exact h
      · next hge hne =>
        refine List.pairwise_cons.2 ⟨fun m hm => ?_, ih hr⟩
        rcases (mem_insertInto name m rest).1 hm with rfl | hm
        · exact Decidable.byContradiction fun hc =>
            hne (String.le_antisymm (String.not_lt.1 hc) (String.not_lt.1 hge))
        · exact hn m hm

def insert (s : NameSet) (name : String) : NameSet :=
  ⟨insertInto name s.names, ascending_insertInto name s.names s.ascending⟩

def insertAll (s : NameSet) (names : List String) : NameSet := names.foldl insert s

def ofList (names : List String) : NameSet := empty.insertAll names

def contains (s : NameSet) (name : String) : Bool := s.names.contains name

theorem mem_insertAll (s : NameSet) (names : List String) (m : String) :
    m ∈ (s.insertAll names).names ↔ m ∈ names ∨ m ∈ s.names := by
  induction names generalizing s with
  | nil => simp [insertAll]
  | cons n rest ih =>
    have h := ih (s.insert n)
    simp only [insertAll, insert, List.foldl_cons] at h ⊢
    rw [h, mem_insertInto, List.mem_cons]
    constructor
    · rintro (h | h | h)
      · exact .inl (.inr h)
      · exact .inl (.inl h)
      · exact .inr h
    · rintro ((h | h) | h)
      · exact .inr (.inl h)
      · exact .inl h
      · exact .inr (.inr h)

end NameSet

end AbiLayout
