import AbiLayout.Cpp.Error
import AbiLayout.Cpp.Name
import AbiLayout.Description.Types

/-!
# Scopes of a record

A scope is a record or a named alternative. It declares its simple and range members, its named
alternatives, and everything that anonymous alternatives of any depth hoist into it, all under their
mangled names; two of the same name cannot stand in one scope.
-/

namespace AbiLayout.Cpp

mutual

def memberNames : Member → List String
  | .simple name _ => [mangle name]
  | .variant alternatives => alternativesNames alternatives
  | .range name _ _ _ _ => [mangle name]

/-- What a member list declares in the scope it stands in, in order. -/
def declaredNames : List Member → List String
  | [] => []
  | m :: rest => memberNames m ++ declaredNames rest

/-- What an alternative declares: its own name, or what it hoists. -/
def alternativeNames : Alternative → List String
  | .mk none members => declaredNames members
  | .mk (some name) _ => [mangle name]

def alternativesNames : List Alternative → List String
  | [] => []
  | a :: rest => alternativeNames a ++ alternativesNames rest

end

/-- The first entry that is among the seen ones or repeats an earlier entry. -/
def firstRepeatAfter (seen : List String) : List String → Option String
  | [] => none
  | name :: rest => if seen.contains name then some name else firstRepeatAfter (name :: seen) rest

def firstRepeat (names : List String) : Option String := firstRepeatAfter [] names

theorem firstRepeatAfter_eq_none_iff (seen names : List String) :
    firstRepeatAfter seen names = none ↔ names.Nodup ∧ ∀ n ∈ names, n ∉ seen := by
  induction names generalizing seen with
  | nil => simp [firstRepeatAfter]
  | cons name rest ih =>
    by_cases h : name ∈ seen
    · simp [firstRepeatAfter, h]
    · simp only [firstRepeatAfter, List.contains_eq_mem, h, decide_false, Bool.false_eq_true,
        if_false, ih, List.nodup_cons, List.mem_cons]
      constructor
      · rintro ⟨hn, hs⟩
        refine ⟨⟨fun hm => (hs name hm) (.inl rfl), hn⟩, ?_⟩
        rintro n (rfl | hm)
        · exact h
        · exact fun hc => hs n hm (.inr hc)
      · rintro ⟨⟨hm, hn⟩, hs⟩
        refine ⟨hn, fun n hr hc => ?_⟩
        rcases hc with rfl | hc
        · exact hm hr
        · exact hs n (.inr hr) hc

/-- A list without a repeat is one whose entries are pairwise different. -/
theorem firstRepeat_eq_none_iff (names : List String) : firstRepeat names = none ↔ names.Nodup := by
  simp [firstRepeat, firstRepeatAfter_eq_none_iff]

def scopeFault (scope : String) (members : List Member) : Option RenderError :=
  (firstRepeat (declaredNames members)).map (.duplicateIdentifier scope)

end AbiLayout.Cpp
