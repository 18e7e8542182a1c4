import AbiLayout.Cpp.Spelling
import AbiLayout.Proofs.Emission

/-!
# The name inside a declaration

Pointers, arrays and atomics are built over one type each, so a declaration holds at most one name of
a described type. Main statement: whatever way such names are spelled, the text around the name is
the same.
-/

namespace AbiLayout

/-- The described name that is met below pointers, arrays and atomics. -/
def AbiType.leafName? : AbiType → Option String
  | .atomic target => target.leafName?
  | .pointer target _ => target.leafName?
  | .array element _ => element.leafName?
  | .aliasOf name _ => some name
  | .intLike body => some body.name
  | .userDefined name => some name
  | .record name _ => some name
  | .void | .int _ => none

namespace Cpp

/-- The generated spelling, with `f` in charge of the names of described types. -/
def generatedWith (f : String → String) : Spelling := { generated with named := f }

theorem insideRecord_eq (space : String) (hidden : List String) :
    insideRecord space hidden = generatedWith fun name =>
      if hidden.contains (mangle name) then space ++ "::" ++ mangle name else mangle name := rfl

/-- The spelling of a name, and nothing where there is no name. -/
def leafText (f : String → String) (name : Option String) : String := name.elim "" f

/-- A text that is the same around a name, whatever spells the name. -/
def Framed (name : Option String) (spelled : (String → String) → Except RenderError String) : Prop :=
  ∃ before after, ∀ g, spelled g = .ok (before ++ leafText g name ++ after)

theorem Framed.of_nameless {spelled : (String → String) → Except RenderError String} {text : String}
    (h : ∀ g, spelled g = .ok text) : Framed none spelled := by
  refine ⟨text, "", fun g => ?_⟩
  rw [h g, leafText, Option.elim_none, String.append_empty, String.append_empty]

/-- More text around a framed name. -/
theorem Framed.around {name : Option String}
    {spelled wrapped : (String → String) → Except RenderError String} (start stop : String)
    (h : Framed name spelled)
    (hwrapped : ∀ g text, spelled g = .ok text → wrapped g = .ok (start ++ text ++ stop)) :
    Framed name wrapped := by
  obtain ⟨before, after, hframe⟩ := h
  refine ⟨start ++ before, after ++ stop, fun g => ?_⟩
  rw [hwrapped g _ (hframe g)]
  simp only [String.append_assoc]

theorem qualify_eq_around (constant : Bool) (text : String) :
    qualify constant text = qualify constant "" ++ text ++ "" := by
  cases constant with
  | false => simp only [qualify, Bool.false_eq_true, if_false, String.empty_append, String.append_empty]
  | true => simp only [qualify, if_true, String.append_empty]

-- A target is spelled inside its type, so its frame grows by what the type writes around it. What can be
-- refused on the way, an empty array or a value of type void, does not depend on the names: one spelling
-- that succeeds is enough for all of them.
mutual

theorem spell_generatedWith (f : String → String) (t : AbiType) {text : String}
    (h : (generatedWith f).spell t = .ok text) :
    Framed t.leafName? fun g => (generatedWith g).spell t := by
  cases t with
  | void => exact .of_nameless fun _ => rfl
  | int kind => exact .of_nameless fun _ => rfl
  | atomic target =>
    rw [Spelling.spell, bind_eq_ok_iff] at h
    obtain ⟨inner, hi, _⟩ := h
    refine (spell_generatedWith f target hi).around "std::atomic<" ">" fun g text hg => ?_
    rw [Spelling.spell, hg]
    rfl
  | pointer target constant =>
    rw [Spelling.spell, bind_eq_ok_iff] at h
    obtain ⟨inner, hi, _⟩ := h
    refine (spellThrough_generatedWith f target _ hi).around (qualify constant "") "" fun g text hg => ?_
    rw [Spelling.spell, hg, ← qualify_eq_around]
    rfl
  | array element count =>
    rw [Spelling.spell, bind_eq_ok_iff] at h
    obtain ⟨d, hd, hi⟩ := h
    obtain ⟨before, after, hframe⟩ := spellThrough_generatedWith f element d hi
    refine ⟨before, after, fun g => ?_⟩
    show (generatedWith g).spell (.array element count) = _
    rw [Spelling.spell, hd, AbiType.leafName?, ← hframe g]
    rfl
  | _ =>
    refine ⟨"", "", fun g => ?_⟩
    simp [Spelling.spell, leafText, AbiType.leafName?, generatedWith]

theorem spellThrough_generatedWith (f : String → String) (t : AbiType) (d : Declarator)
    {text : String} (h : (generatedWith f).spellThrough t d = .ok text) :
    Framed t.leafName? fun g => (generatedWith g).spellThrough t d := by
  cases t with
  | void =>
    rw [Spelling.spellThrough] at h
    have hvoid : ∀ g, (generatedWith g).spellThrough .void d = .ok text := by
      intro g
      rw [Spelling.spellThrough, h]
    exact .of_nameless hvoid
  | int kind =>
    have hint : ∀ g, (generatedWith g).spellThrough (.int kind) d =
        .ok (place (generatedIntegral kind) d) := by
      intro g
      rw [Spelling.spellThrough]
      rfl
    exact .of_nameless hint
  | atomic target =>
    rw [Spelling.spellThrough, bind_eq_ok_iff] at h
    obtain ⟨inner, hi, _⟩ := h
    refine (spell_generatedWith f target hi).around "std::atomic<" (">" ++ (" " ++ d.text))
      fun g text hg => ?_
    rw [Spelling.spellThrough, hg, ← String.append_assoc, ← String.append_assoc]
    rfl
  | pointer target constant =>
    rw [Spelling.spellThrough, bind_eq_ok_iff] at h
    obtain ⟨inner, hi, _⟩ := h
    refine (spellThrough_generatedWith f target _ hi).around (qualify constant "") "" fun g text hg => ?_
    rw [Spelling.spellThrough, hg, ← qualify_eq_around]
    rfl
  | array element count =>
    rw [Spelling.spellThrough, bind_eq_ok_iff] at h
    obtain ⟨e, he, hi⟩ := h
    obtain ⟨before, after, hframe⟩ := spellThrough_generatedWith f element e hi
    refine ⟨before, after, fun g => ?_⟩
    show (generatedWith g).spellThrough (.array element count) d = _
    rw [Spelling.spellThrough, he, AbiType.leafName?, ← hframe g]
    rfl
  | _ =>
    refine ⟨"", " " ++ d.text, fun g => ?_⟩
    simp [Spelling.spellThrough, place, leafText, AbiType.leafName?, generatedWith, String.append_assoc]

end

end Cpp

end AbiLayout
