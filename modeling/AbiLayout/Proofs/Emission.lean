import AbiLayout.Cpp.Emission

/-!
# Steps that finish

A sequence of steps that can fail gives a value exactly if every step does, and an emission that
finishes has written the lines of its steps, one after the other. Emissions obey the laws of sequences.
-/

namespace AbiLayout.Cpp

theorem bind_eq_ok_iff {ε α β : Type} (x : Except ε α) (f : α → Except ε β) (b : β) :
    (x >>= f) = .ok b ↔ ∃ a, x = .ok a ∧ f a = .ok b := by
  cases x with
  | error e =>
    constructor
    · intro h
      cases h
    · rintro ⟨a, ha, _⟩
      cases ha
  | ok a =>
    constructor
    · intro h
      exact ⟨a, rfl, h⟩
    · rintro ⟨a', ha, h⟩
      cases ha
      exact h

theorem map_eq_ok_iff {ε α β : Type} {x : Except ε α} {f : α → β} {b : β} :
    x.map f = .ok b ↔ ∃ a, x = .ok a ∧ f a = b := by
  cases x <;> simp [Except.map]

theorem mapError_eq_ok_iff {ε ε' α : Type} {x : Except ε α} {f : ε → ε'} {a : α} :
    x.mapError f = .ok a ↔ x = .ok a := by
  cases x with
  | error e =>
    constructor
    · intro h
      cases h
    · intro h
      cases h
  | ok b =>
    constructor
    · intro h
      cases h
      rfl
    · intro h
      cases h
      rfl

theorem toOption_eq_some_iff {ε α : Type} (x : Except ε α) (b : α) : x.toOption = some b ↔ x = .ok b := by
  cases x <;> simp [Except.toOption]

namespace Emission

theorem result_bind {α β : Type} (x : Emission α) (f : α → Emission β) :
    (x >>= f).result = x.result >>= fun a => (f a).result := by
  show (x.andThen f).result = _
  unfold andThen
  cases x.result <;> rfl

theorem result_bind_eq_ok_iff {α β : Type} (x : Emission α) (f : α → Emission β) (b : β) :
    (x >>= f).result = .ok b ↔ ∃ a, x.result = .ok a ∧ (f a).result = .ok b := by
  rw [result_bind, bind_eq_ok_iff]

/-- After a step that has finished, the next one goes on from its value. -/
theorem mk_ok_bind {α β : Type} (lines : List String) (a : α) (f : α → Emission β) :
    (mk lines (.ok a) >>= f) = ⟨lines ++ (f a).lines, (f a).result⟩ := rfl

theorem value_bind {α β : Type} (a : α) (f : α → Emission β) : (pure a >>= f) = f a := by
  show mk ([] ++ (f a).lines) (f a).result = f a
  rw [List.nil_append]

theorem bind_value {α : Type} (x : Emission α) : (x >>= fun a => pure a) = x := by
  obtain ⟨lines, result⟩ := x
  cases result with
  | error e => rfl
  | ok a =>
    show mk (lines ++ []) (.ok a) = _
    rw [List.append_nil]

theorem bind_bind {α β γ : Type} (x : Emission α) (f : α → Emission β) (g : β → Emission γ) :
    (x >>= f >>= g) = x >>= fun a => f a >>= g := by
  obtain ⟨lines, result⟩ := x
  cases result with
  | error e => rfl
  | ok a =>
    rw [mk_ok_bind, mk_ok_bind]
    cases hf : f a with
    | mk inner value =>
      cases value with
      | error e => rfl
      | ok b =>
        rw [mk_ok_bind, mk_ok_bind]
        simp only [List.append_assoc]

instance : LawfulMonad Emission :=
  LawfulMonad.mk' Emission bind_value value_bind bind_bind

theorem check_result_eq_ok_iff (fault : Option RenderError) (u : Unit) :
    (check fault).result = .ok u ↔ fault = none := by
  cases fault <;> simp [check]

theorem lift_result {α : Type} (r : Except RenderError α) : (lift r).result = r := rfl

end Emission

end AbiLayout.Cpp
