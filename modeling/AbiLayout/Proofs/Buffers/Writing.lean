import AbiLayout.Cpp.Emission
import AbiLayout.Proofs.Emission

/-!
# Writing into a buffer

A step that writes puts its text behind what is there already. If it fails, what it had written stays, and
nothing more is written. Main statement: steps that append, whatever they write to, append in sequence, and a
sequence of them appends the text of the emission that has the same steps.
-/

namespace AbiLayout.Cpp

theorem unlines_singleton (line : String) : unlines [line] = line ++ "\n" := by
  rw [unlines_cons]
  exact String.append_empty

/-- A step that changes a text and may fail; a fault leaves the text as it then is. -/
abbrev Writing := ExceptT RenderError (StateM String)

namespace Writing

/-- How a step ends that begins with the text `buffer`, and the text that it leaves. -/
def on {α : Type} (w : Writing α) (buffer : String) : Except RenderError α × String :=
  StateT.run (ExceptT.run w) buffer

def write (text : String) : Writing Unit := modify fun buffer => buffer ++ text

def writeLine (line : String) : Writing Unit := write (line ++ "\n")

def writeLines : List String → Writing Unit
  | [] => pure ()
  | line :: rest => do
    writeLine line
    writeLines rest

/-- Goes on with a value or fails; nothing is written. -/
def ofResult {α : Type} (r : Except RenderError α) : Writing α := ExceptT.mk (pure r)

/-- Fails if there is a fault. -/
def refuse (fault : Option RenderError) : Writing Unit :=
  match fault with
  | some e => throw e
  | none => pure ()

/-- From every text the step ends with `result` and leaves `text` behind what was there. -/
def Appends {α : Type} (w : Writing α) (result : Except RenderError α) (text : String) : Prop :=
  ∀ buffer, w.on buffer = (result, buffer ++ text)

/-- The step appends the text of an emission and ends as it does. -/
def Carries {α : Type} (w : Writing α) (x : Emission α) : Prop := w.Appends x.result x.text

/-! ### Single steps -/

theorem appends_pure {α : Type} (a : α) : Appends (pure a) (.ok a) "" := by
  intro buffer
  rw [String.append_empty]
  rfl

theorem appends_write (text : String) : (write text).Appends (.ok ()) text := fun _ => rfl

theorem appends_writeLine (line : String) : (writeLine line).Appends (.ok ()) (line ++ "\n") := fun _ => rfl

theorem appends_ofResult {α : Type} (r : Except RenderError α) : (ofResult r).Appends r "" := by
  intro buffer
  rw [String.append_empty]
  rfl

/-! ### Sequences -/

section

variable {α β : Type} {w : Writing α} {f : α → Writing β}

theorem on_bind_of_ok {buffer buffer' : String} {a : α} (h : w.on buffer = (.ok a, buffer')) :
    on (w >>= f) buffer = (f a).on buffer' := by
  show StateT.run (ExceptT.run w >>= ExceptT.bindCont f) buffer = _
  rw [StateT.run_bind]
  rw [on] at h
  rw [h]
  rfl

theorem on_bind_of_error {buffer buffer' : String} {e : RenderError}
    (h : w.on buffer = (.error e, buffer')) : on (w >>= f) buffer = (.error e, buffer') := by
  show StateT.run (ExceptT.run w >>= ExceptT.bindCont f) buffer = _
  rw [StateT.run_bind]
  rw [on] at h
  rw [h]
  rfl

theorem Appends.bind_ok {a : α} {r : Except RenderError β} {first second : String}
    (hw : w.Appends (.ok a) first) (hf : (f a).Appends r second) :
    Appends (w >>= f) r (first ++ second) := by
  intro buffer
  rw [on_bind_of_ok (hw buffer), hf, String.append_assoc]

theorem Appends.congr {r : Except RenderError α} {text text' : String} (hw : w.Appends r text)
    (h : text = text') : w.Appends r text' := h ▸ hw

/-- The two go through their steps together, up to the first that fails. -/
theorem Carries.bind {x : Emission α} {g : α → Emission β} (hw : w.Carries x)
    (hf : ∀ a, x.result = .ok a → (f a).Carries (g a)) : Carries (w >>= f) (x >>= g) := by
  obtain ⟨lines, result⟩ := x
  cases result with
  | error e =>
    intro buffer
    exact on_bind_of_error (hw buffer)
  | ok a =>
    have htext : (Emission.mk lines (.ok a) >>= g).text = unlines lines ++ (g a).text := by
      rw [Emission.mk_ok_bind, Emission.text, unlines_append]
      rfl
    intro buffer
    rw [htext]
    exact Appends.bind_ok hw (hf a rfl) buffer

end

/-! ### Steps of emissions -/

theorem carries_pure {α : Type} (a : α) : Carries (pure a) (pure a) := appends_pure a

theorem carries_ofResult {α : Type} (r : Except RenderError α) : (ofResult r).Carries (.lift r) :=
  appends_ofResult r

/-- A value may be worked on before it is passed on, or after. -/
theorem carries_ofResult_map {α β γ : Type} (r : Except RenderError α) (f : α → β) {k : α → Writing γ}
    {g : β → Emission γ} (h : ∀ a, (k a).Carries (g (f a))) :
    Carries (ofResult r >>= k) (Emission.lift (do return f (← r)) >>= g) := by
  have hsteps : (Emission.lift (do return f (← r)) >>= g) = Emission.lift r >>= fun a => g (f a) := by
    cases r <;> rfl
  rw [hsteps]
  exact (carries_ofResult r).bind fun a _ => h a

theorem carries_refuse (fault : Option RenderError) : (refuse fault).Carries (.check fault) := by
  intro buffer
  cases fault with
  | some e => exact appends_ofResult (.error e) buffer
  | none => exact appends_pure () buffer

theorem carries_writeLine (line : String) : (writeLine line).Carries (.line line) :=
  (appends_writeLine line).congr (unlines_singleton line).symm

theorem appends_writeLines (lines : List String) : (writeLines lines).Appends (.ok ()) (unlines lines) := by
  induction lines with
  | nil => exact appends_pure ()
  | cons line rest ih =>
    rw [unlines_cons]
    exact (appends_writeLine line).bind_ok ih

theorem carries_writeLines (lines : List String) : (writeLines lines).Carries (.block lines) :=
  appends_writeLines lines

end Writing

end AbiLayout.Cpp
