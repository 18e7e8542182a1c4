import Mathlib.Tactic.ByContra
import AbiLayout.CommandLine
import AbiLayout.Proofs.Emission

/-!
# The verbose flag

A flag in front of the other arguments is given first and stays out of their way: no step looks at a
given option but to refuse the same one again. Main statement: the verbose flag in front of a line that
has none asks for the same, only verbosely.
-/

namespace AbiLayout.CommandLine

open Cpp (bind_eq_ok_iff)

/-- What the verbose flag gives. -/
def verboseFlag : OptionName × String := (.verbose, "")

/-- Nothing is said on the way. -/
def Silent (given : Given) : Prop := ∀ x ∈ given, x.1 ≠ .verbose

/-- What is given has grown from the one to the other; and if nothing is said on the way, the same comes
about with the flag in front. -/
structure Passes (given given' : Given) (again : Prop) : Prop where
  grown : given <+: given'
  behind : Silent given' → again

theorem Passes.stay {given : Given} {again : Prop} (h : again) : Passes given given again :=
  ⟨List.prefix_rfl, fun _ => h⟩

/-- One step after the other. -/
theorem Passes.bind {α β : Type} {given next given' : Given} {x : Except Stop α} {a : α}
    {f : α → Except Stop β} {b : β} (hx : Passes given next (x = .ok a))
    (hf : Passes next given' (f a = .ok b)) : Passes given given' (x >>= f = .ok b) where
  grown := hx.grown.trans hf.grown
  behind hsilent := by
    have hnext : Silent next := fun o ho => hsilent o (hf.grown.subset ho)
    exact (bind_eq_ok_iff _ _ _).mpr ⟨a, hx.behind hnext, hf.behind hsilent⟩

/-! ### One step -/

theorem give_verbose {given given' : Given} {o : OptionName} {value : String}
    (h : give given o value = .ok given') :
    Passes given given' (give (verboseFlag :: given) o value = .ok (verboseFlag :: given')) := by
  rw [give] at h
  split at h
  · cases h
  rename_i hpath
  split at h
  · cases h
  rename_i hagain
  obtain rfl : given ++ [(o, value)] = given' := Except.ok.inj h
  refine ⟨List.prefix_append _ _, fun hsilent => ?_⟩
  have ho : o ≠ .verbose := hsilent (o, value) (by simp)
  have hany : (verboseFlag :: given).any (·.1 == o) = given.any (·.1 == o) := by
    simp [verboseFlag, ho.symm]
  rw [give, if_neg hpath, hany, if_neg hagain, List.cons_append]

theorem giveFlag_verbose {given given' : Given} {o : OptionName}
    (h : giveFlag given o = .ok given') :
    Passes given given' (giveFlag (verboseFlag :: given) o = .ok (verboseFlag :: given')) := by
  rw [giveFlag] at h
  split at h
  · cases h
  rename_i hhelp
  rw [giveFlag, if_neg hhelp]
  exact give_verbose h

/-- A step that leaves no option waiting. -/
theorem complete_verbose {given given' : Given} {x y : Except Stop Given}
    {waiting : Option OptionName}
    (hstep : ∀ {next}, x = .ok next → Passes given next (y = .ok (verboseFlag :: next)))
    (h : (do return (← x, none)) = Except.ok (given', waiting)) :
    Passes given given'
      ((do return (← y, none)) = (Except.ok (verboseFlag :: given', waiting) : Except Stop _)) := by
  obtain ⟨next, hnext, h⟩ := (bind_eq_ok_iff _ _ _).mp h
  cases h
  exact (hstep hnext).bind (.stay rfl)

theorem readShorts_verbose {options : List OptionName} {given given' : Given} {text : List Char}
    {waiting : Option OptionName} (h : readShorts options given text = .ok (given', waiting)) :
    Passes given given'
      (readShorts options (verboseFlag :: given) text = .ok (verboseFlag :: given', waiting)) := by
  induction text generalizing given with
  | nil =>
    cases h
    exact .stay rfl
  | cons c rest ih =>
    rw [readShorts] at h ⊢
    split at h
    · cases h
    rename_i o ho
    split at h
    · rename_i hflag
      obtain ⟨next, hnext, h⟩ := (bind_eq_ok_iff _ _ _).mp h
      simp only [if_pos hflag]
      exact (giveFlag_verbose hnext).bind (ih h)
    · rename_i hflag
      simp only [if_neg hflag]
      split at h
      · cases h
        exact .stay rfl
      · exact complete_verbose give_verbose h
      · exact complete_verbose give_verbose h

theorem readLong_verbose {options : List OptionName} {given given' : Given} {text : List Char}
    {waiting : Option OptionName} (h : readLong options given text = .ok (given', waiting)) :
    Passes given given'
      (readLong options (verboseFlag :: given) text = .ok (verboseFlag :: given', waiting)) := by
  rw [readLong] at h ⊢
  cases hfind : options.find? fun o => o.long.toList == text.takeWhile (· != '=') with
  | none =>
    rw [hfind] at h
    cases h
  | some o =>
    simp only [hfind] at h ⊢
    cases hattached : text.dropWhile (· != '=') with
    | nil =>
      by_cases hflag : o.isFlag
      · simp only [hattached, if_pos hflag] at h ⊢
        exact complete_verbose giveFlag_verbose h
      · simp only [hattached, if_neg hflag] at h ⊢
        cases h
        exact .stay rfl
    | cons _ value =>
      by_cases hflag : o.isFlag
      · simp only [hattached, if_pos hflag] at h
        cases h
      · simp only [hattached, if_neg hflag] at h ⊢
        exact complete_verbose give_verbose h

/-! ### A whole line -/

theorem readArgs_verbose {options : List OptionName} {given given' : Given} {args : List String}
    {waiting : Option OptionName} (h : readArgs options given waiting args = .ok given') :
    Passes given given'
      (readArgs options (verboseFlag :: given) waiting args = .ok (verboseFlag :: given')) := by
  induction args generalizing given waiting with
  | nil =>
    rw [readArgs] at h ⊢
    split at h
    · cases h
    · rename_i hwaiting
      cases h
      exact .stay (if_neg hwaiting)
  | cons arg rest ih =>
    rw [readArgs.eq_def] at h ⊢
    dsimp only at h ⊢
    split at h
    · split at h
      · cases h
      · rename_i hend
        cases h
        exact .stay (if_neg hend)
    · split at h
      · cases h
      · rename_i hwaiting
        rw [if_neg hwaiting]
        obtain ⟨⟨next, waiting'⟩, hnext, h⟩ := (bind_eq_ok_iff _ _ _).mp h
        exact (readLong_verbose hnext).bind (ih h)
    · split at h
      · cases h
      · rename_i hwaiting
        rw [if_neg hwaiting]
        obtain ⟨⟨next, waiting'⟩, hnext, h⟩ := (bind_eq_ok_iff _ _ _).mp h
        exact (readShorts_verbose hnext).bind (ih h)
    · split at h
      · obtain ⟨next, hnext, h⟩ := (bind_eq_ok_iff _ _ _).mp h
        exact (give_verbose hnext).bind (ih h)
      · cases h

theorem readArgs_flag {flag : String} (hflag : flag = "--verbose" ∨ flag = "-v") (args : List String) :
    readArgs CommandName.codegen.options [] none (flag :: args) =
      readArgs CommandName.codegen.options [verboseFlag] none args := by
  obtain rfl | rfl := hflag
  · rfl
  · rfl

theorem parse_codegen_iff {rest : List String} {command : Command} (h : command ≠ .help) :
    parse ("codegen" :: rest) = some command ↔
      ∃ given, readArgs CommandName.codegen.options [] none rest = .ok given ∧
        commandOf .codegen given = some command := by
  rw [parse.eq_def]
  simp only [if_true]
  split
  · rename_i given hgiven
    rw [hgiven]
    simp
  · rename_i hgiven
    rw [hgiven]
    simpa using h.symm
  · rename_i hgiven
    rw [hgiven]
    simp

/-- Only a line that begins with the name of the command asks for it. -/
theorem exists_of_parse_codegen {args : List String} {a : SharedOptions} {dir : String}
    (h : parse args = some (.codegen a dir)) : ∃ rest, args = "codegen" :: rest := by
  cases args with
  | nil => cases h
  | cons arg rest =>
    refine ⟨rest, congrArg (· :: rest) ?_⟩
    by_contra hcodegen
    rw [parse.eq_def] at h
    simp only [if_neg hcodegen] at h
    by_cases hanalyze : arg = "analyze"
    · simp only [if_pos hanalyze] at h
      split at h
      · rename_i given _
        cases hshared : sharedOptions given <;> simp [commandOf, hshared] at h
      · cases h
      · cases h
    · simp only [if_neg hanalyze] at h
      split at h
      · cases h
      split at h
      · split at h
        · cases h
        · split at h <;> cases h
        · cases h
      · cases h

theorem commandOf_codegen (given : Given) :
    commandOf .codegen given = (given.lookup .file).map fun file =>
      .codegen
        { file
          config := given.lookup .config
          overrides := {
            space := given.lookup .space
            canonicalLead := given.lookup .canonicalLead
            exclude := (given.filter (·.1 == .exclude)).map (·.2) }
          verbose := (given.lookup .verbose).isSome }
        ((given.lookup .output).getD defaultOutputDir) := by
  rw [commandOf, sharedOptions]
  cases given.lookup .file <;> rfl

theorem lookup_verboseFlag {o : OptionName} (ho : o ≠ .verbose) (given : Given) :
    (verboseFlag :: given).lookup o = given.lookup o := by
  rw [List.lookup_cons, verboseFlag, beq_false_of_ne ho]

/-- The verbose flag in front of a line that has none. -/
theorem parse_verbose {flag : String} {rest : List String} {a : SharedOptions} {dir : String}
    (hflag : flag = "--verbose" ∨ flag = "-v")
    (h : parse ("codegen" :: rest) = some (.codegen a dir)) (ha : a.verbose = false) :
    parse ("codegen" :: flag :: rest) = some (.codegen { a with verbose := true } dir) := by
  rw [parse_codegen_iff (by simp)] at h ⊢
  rw [readArgs_flag hflag]
  obtain ⟨given, hgiven, h⟩ := h
  rw [commandOf_codegen] at h
  obtain ⟨file, hfile, hcommand⟩ := Option.map_eq_some_iff.mp h
  cases hcommand
  have hsilent : Silent given := by
    intro x hx hverbose
    have hlookup : given.lookup .verbose = none := by simpa using ha
    exact absurd (List.lookup_eq_none_iff.mp hlookup x hx) (by simp [hverbose])
  refine ⟨verboseFlag :: given, (readArgs_verbose hgiven).behind hsilent, ?_⟩
  have hflag' : (verboseFlag :: given).lookup .verbose = some "" := rfl
  have hexclude : (verboseFlag :: given).filter (·.1 == .exclude) = given.filter (·.1 == .exclude) := rfl
  rw [commandOf_codegen, hflag', hexclude]
  simp (disch := decide) only [lookup_verboseFlag, hfile]
  rfl

end AbiLayout.CommandLine
