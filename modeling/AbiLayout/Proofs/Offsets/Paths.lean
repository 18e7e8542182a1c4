import AbiLayout.Proofs.Names.Declarable
import AbiLayout.Proofs.Offsets.Places

/-!
# What paths tell apart

A path is a list of names written with dots, so it determines the names as far as none of them has a dot
in it. Mangled names never have one. Main statement: two generated paths are equal exactly if their names
are, one by one, after mangling, and two canonical paths whose names have no dot exactly if their names
are.
-/

namespace AbiLayout.Cpp

open Text (dotless_of_isIdentifier)

theorem dotless_mangle (name : String) : '.' ∉ (mangle name).toList :=
  dotless_of_isIdentifier (mangle_declarable name).identifier

theorem dotted_eq_dotted_iff {parts parts' : List String} (hne : parts ≠ []) (hne' : parts' ≠ [])
    (h : ∀ part ∈ parts, '.' ∉ part.toList) (h' : ∀ part ∈ parts', '.' ∉ part.toList) :
    dotted parts = dotted parts' ↔ parts = parts' := by
  constructor
  · intro heq
    have hparts := congrArg dotParts heq
    rwa [dotParts_dotted hne h, dotParts_dotted hne' h'] at hparts
  · rintro rfl
    rfl

namespace DualPath

theorem generated_through_eq_iff (s t : List String) (a b : String) :
    (through s).generated a = (through t).generated b ↔
      s.map mangle = t.map mangle ∧ mangle a = mangle b := by
  have hdotless : ∀ names : List String, ∀ part ∈ names.map mangle, '.' ∉ part.toList := by
    intro names part hpart
    obtain ⟨name, _, rfl⟩ := List.mem_map.1 hpart
    exact dotless_mangle name
  rw [generated_through, generated_through,
    dotted_eq_dotted_iff (by simp) (by simp) (hdotless _) (hdotless _), List.map_append,
    List.map_append, List.map_singleton, List.map_singleton, List.append_singleton_inj]

theorem canonical_through_eq_iff {s t : List String} {a b : String}
    (hs : ∀ part ∈ s ++ [a], '.' ∉ part.toList) (ht : ∀ part ∈ t ++ [b], '.' ∉ part.toList) :
    (through s).canonical a = (through t).canonical b ↔ s = t ∧ a = b := by
  rw [canonical_through, canonical_through, dotted_eq_dotted_iff (by simp) (by simp) hs ht,
    List.append_singleton_inj]

theorem into_ne_root (p : DualPath) (name : String) : p.into name ≠ root := by
  intro h
  have hlead : p.canonicalLead ++ name ++ "." = "" := congrArg canonicalLead h
  have hlength := congrArg String.length hlead
  rw [String.length_append] at hlength
  exact absurd hlength (by simp)

theorem through_eq_root_iff (s : List String) : through s = root ↔ s = [] := by
  constructor
  · intro h
    cases s using List.reverseRecOn with
    | nil => rfl
    | append_singleton rest last =>
      rw [through_concat] at h
      exact absurd h (into_ne_root _ last)
  · rintro rfl
    rfl

/-- A path tells how deep it leads and, as far as they are told apart, through which names: the generated
path up to mangling, the canonical path wherever no name has a dot; and only the path into nothing is the
root. -/
theorem through_faithful (s t : List String) (a b : String) :
    ((through s).generated a = (through t).generated b ↔
      s.length = t.length ∧ List.Forall₂ (fun x y => mangle x = mangle y) s t ∧
        mangle a = mangle b) ∧
    ((∀ name ∈ s ++ [a], '.' ∉ name.toList) → (∀ name ∈ t ++ [b], '.' ∉ name.toList) →
      ((through s).canonical a = (through t).canonical b ↔ s = t ∧ a = b)) ∧
    (through s = root ↔ s = []) := by
  refine ⟨?_, canonical_through_eq_iff, through_eq_root_iff s⟩
  have hpairs : s.map mangle = t.map mangle ↔ List.Forall₂ (fun x y => mangle x = mangle y) s t := by
    rw [← List.forall₂_eq_eq_eq, List.forall₂_map_left_iff, List.forall₂_map_right_iff]
  rw [generated_through_eq_iff, hpairs]
  constructor
  · rintro ⟨hnames, hleaf⟩
    exact ⟨hnames.length_eq, hnames, hleaf⟩
  · rintro ⟨_, hnames, hleaf⟩
    exact ⟨hnames, hleaf⟩

/-- Names without dots, one of them empty and one a reserved word: the canonical paths differ, and the
generated paths are equal to those of other names. -/
theorem through_faithful_escaped :
    (∀ name ∈ ["", "union"] ++ ["errno"], '.' ∉ name.toList) ∧
    (∀ name ∈ ["_", "union_"] ++ ["error"], '.' ∉ name.toList) ∧
    ((through ["", "union"]).canonical "errno" = (through ["_", "union_"]).canonical "error" ↔
      ["", "union"] = ["_", "union_"] ∧ "errno" = "error") ∧
    (through ["", "union"]).generated "errno" = "_.union_.error" ∧
    (through ["", "union"]).generated "errno" = (through ["_", "union_"]).generated "error" ∧
    List.Forall₂ (fun x y => mangle x = mangle y) ["", "union"] ["_", "union_"] ∧
    through ["", "union"] ≠ root := by
  have hdotless : ∀ name ∈ ["", "union"] ++ ["errno"], '.' ∉ name.toList := by decide +kernel
  have hdotless' : ∀ name ∈ ["_", "union_"] ++ ["error"], '.' ∉ name.toList := by decide +kernel
  have hwritten : (through ["", "union"]).generated "errno" = "_.union_.error" := by decide +kernel
  have hwritten' : (through ["_", "union_"]).generated "error" = "_.union_.error" := by decide +kernel
  have hequal := hwritten.trans hwritten'.symm
  obtain ⟨hgenerated, hcanonical, hroot⟩ :=
    through_faithful ["", "union"] ["_", "union_"] "errno" "error"
  have hnested : through ["", "union"] ≠ root := fun h => absurd (hroot.1 h) (by simp)
  exact ⟨hdotless, hdotless', hcanonical hdotless hdotless', hwritten, hequal,
    (hgenerated.1 hequal).2.1, hnested⟩

end DualPath

end AbiLayout.Cpp
