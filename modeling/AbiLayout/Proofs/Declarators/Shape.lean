import AbiLayout.Proofs.Declarators.Chain
import AbiLayout.Proofs.Declarators.Reading

/-!
# Declarations have the shape of their types

Whatever the spelling, a declaration that succeeds holds a declarator whose only reading is the
declared name with the steps of the type, from the outside in.
-/

namespace AbiLayout.Cpp

open Text (isIdentifier)

theorem reads_along_iff (n m : String) (chain l : List Step) (hn : isIdentifier n = true) :
    Reads .whole ((Declarator.name n).along chain).text m l ↔ m = n ∧ l = chain := by
  have hd : ((Declarator.name n).along chain).declared = n := Declarator.declared_along _ _
  have hs : ((Declarator.name n).along chain).steps = chain := by
    rw [Declarator.steps_along]
    rfl
  rw [reads_text_iff _ (by rw [hd, hn]), hd, hs]

/-- A declaration is `const ` for every pointer with a constant target, the base, a blank, and a
declarator that reads as the declared name with the chain of the type. -/
theorem declaration_reads_as_chain (s : Spelling) (t : AbiType) (n text : String)
    (hn : isIdentifier n = true) (h : s.declaration t n = .ok text) :
    ∃ leaf shape, s.spell t.base = .ok leaf ∧
      text = constantMarks t.constantCount ++ leaf ++ " " ++ shape ∧
      ∀ m l, Reads .whole shape m l ↔ m = n ∧ l = t.chain := by
  obtain ⟨leaf, hl, htext⟩ := s.spellThrough_eq_ok t (.name n) h
  refine ⟨leaf, ((Declarator.name n).along t.chain).text, hl, ?_, ?_⟩
  · rw [htext, place]
    simp only [String.append_assoc]
  · intro m l
    exact reads_along_iff n m t.chain l hn

/-- A pointer to an array of pointers to arrays, seen from inside a record with a member `fd`. -/
theorem declaration_reads_as_chain_fd :
    isIdentifier "p" = true ∧
      (insideRecord "cloudabi" ["fd"]).declaration
        (.pointer (.array (.pointer (.array (.userDefined "fd") 2) true) 4) true) "p" =
          .ok "const const cloudabi::fd (*(*p)[4])[2]" ∧
      ∃ leaf shape, (insideRecord "cloudabi" ["fd"]).spell (.userDefined "fd") = .ok leaf ∧
        "const const cloudabi::fd (*(*p)[4])[2]" = constantMarks 2 ++ leaf ++ " " ++ shape ∧
        ∀ m l, Reads .whole shape m l ↔
          m = "p" ∧ l = [.pointer, .array 4, .pointer, .array 2] :=
  ⟨by decide, rfl, declaration_reads_as_chain (insideRecord "cloudabi" ["fd"])
    (.pointer (.array (.pointer (.array (.userDefined "fd") 2) true) 4) true) "p" _ (by decide) rfl⟩

end AbiLayout.Cpp
