import AbiLayout.Cpp.Declaration
import AbiLayout.Proofs.Buffers.Writing
import AbiLayout.Proofs.Enumerations.Acceptance
import AbiLayout.Proofs.Records.DistinctNames

/-!
# Writing declarations

The steps in which declarations are written to a buffer. An enumeration is checked before its first piece is
written, of which the head is no line by itself; the members of a record are checked scope by scope, those of
an alternative without a name once more where they are hoisted. Main statement: these steps append what the
declaration of a type, the definition of a record and the assertions of a layout are, whatever the buffer is.
-/

namespace AbiLayout.Cpp

open Writing

/-! ### Light declarations -/

/-- A line with an empty one behind it. -/
def writeParagraph (line : String) : Writing Unit := write (line ++ "\n\n")

/-- The lines between the braces, where there is any value or a zero that goes without saying. -/
def writeEnumerators (lead : String) (e : IntLike) (synthesized : Bool) : Writing Unit :=
  if !e.values.isEmpty || e.flags then do
    write "\n"
    writeLines (if synthesized then [Enumerator.line (valueWidth e) ⟨noneName, "0"⟩] else [])
    writeLines ((declaredEnumerators lead e).map (·.line (valueWidth e)))
  else pure ()

def writeEnumeration (lead : String) (e : IntLike) : Writing Unit := do
  refuse (enumerationFault e)
  let synthesized ← ofResult (needsNone e)
  write ("enum class " ++ mangle e.name ++ " : " ++ (canonical lead).named e.name ++ " \x7b")
  writeEnumerators lead e synthesized
  writeParagraph "\x7d;"

def writeOperators (name underlying : String) : Writing Unit := do
  write (unlines (binaryOperator name underlying "|"))
  write (unlines (binaryOperator name underlying "&"))
  write (unlines (complementOperator name underlying))

/-- Writes the light declaration of a type. -/
def writeType (lead : String) : AbiType → Writing Unit
  | .aliasOf name _ => writeParagraph ("using " ++ mangle name ++ " = " ++ (canonical lead).named name ++ ";")
  | .intLike body => do
    writeEnumeration lead body
    if body.flags then writeOperators (mangle body.name) ((canonical lead).named body.name) else pure ()
  | .record name _ => writeParagraph ("struct " ++ mangle name ++ ";")
  | .void | .int _ | .atomic _ | .pointer _ _ | .array _ _ | .userDefined _ => pure ()

/-! ### Records -/

mutual

/-- Writes a member, where `visible` are the names of its own scope and those around it. -/
def writeMember (s : RecordSettings) (scope : String) (depth : Nat) (visible : List String) :
    Member → Writing Unit
  | .simple name type => do
    let declaration ← ofResult ((insideRecord s.space visible).declaration type (mangle name))
    writeLine (indentation depth ++ declaration ++ ";")
  | .variant alternatives => do
    writeLine (indentation depth ++ "union \x7b")
    writeAlternatives s scope depth visible alternatives
    writeLine (indentation depth ++ "\x7d;")
  | .range name target constant _ _ => do
    let spelled ← ofResult ((insideRecord s.space visible).spell target)
    writeLine (indentation depth ++ rangeDeclaration s.rangeViewType spelled constant (mangle name) ++ ";")

def writeMembers (s : RecordSettings) (scope : String) (depth : Nat) (visible : List String) :
    List Member → Writing Unit
  | [] => pure ()
  | m :: rest => do
    writeMember s scope depth visible m
    writeMembers s scope depth visible rest

/-- Writes an alternative; the names of its members are compared first, hoisted or not. -/
def writeAlternative (s : RecordSettings) (scope : String) (depth : Nat) (visible : List String) :
    Alternative → Writing Unit
  | .mk none members => do
    refuse (scopeFault scope members)
    writeMembers s scope (depth + 1) (declaredNames members ++ visible) members
  | .mk (some name) members => do
    writeLine (indentation depth ++ "  struct \x7b")
    refuse (scopeFault (scope ++ "." ++ mangle name) members)
    writeMembers s (scope ++ "." ++ mangle name) (depth + 2) (declaredNames members ++ visible) members
    writeLine (indentation depth ++ "  \x7d " ++ mangle name ++ ";")

def writeAlternatives (s : RecordSettings) (scope : String) (depth : Nat) (visible : List String) :
    List Alternative → Writing Unit
  | [] => pure ()
  | a :: rest => do
    writeAlternative s scope depth visible a
    writeAlternatives s scope depth visible rest

end

/-- Writes the assertions of a layout and counts the offsets. -/
def writeAssertions (name cname : String) (members : List Member) (lengthMember : Option String) :
    Writing Nat := do
  writeLine (equalityAssertion ("sizeof(" ++ name ++ ")") ("sizeof(" ++ cname ++ ")"))
  writeLine (equalityAssertion ("alignof(" ++ name ++ ")") ("alignof(" ++ cname ++ ")"))
  writeLines ((sharedOffsets members lengthMember).map (offsetAssertion name cname))
  return (sharedOffsets members lengthMember).length

/-- Writes the definition of a record with its assertions. -/
def writeRecord (s : RecordSettings) (lead : String) (r : Record) : Writing Nat := do
  writeLine ("struct " ++ mangle r.name ++ " \x7b")
  refuse (scopeFault (mangle r.name) r.members)
  writeMembers s (mangle r.name) 1 (declaredNames r.members) r.members
  writeLine "\x7d;"
  let count ← writeAssertions (mangle r.name) ((canonical lead).named r.name) r.members
    s.rangeLengthMember
  write "\n"
  return count

/-! ### What is appended of a type -/

theorem unlines_paragraph (line : String) : unlines [line, ""] = line ++ "\n\n" := by
  have hend : unlines [""] = "\n" := rfl
  rw [unlines_cons, hend, String.append_assoc]
  rfl

theorem appends_writeParagraph (line : String) :
    (writeParagraph line).Appends (.ok ()) (unlines [line, ""]) := by
  rw [unlines_paragraph]
  exact appends_write _

/-- An enumeration with or without a zero that goes without saying. -/
def enumerationWith (lead : String) (e : IntLike) (synthesized : Bool) : Enumeration where
  name := mangle e.name
  underlying := (canonical lead).named e.name
  flags := e.flags
  enumerators := (if synthesized then [⟨noneName, "0"⟩] else []) ++ declaredEnumerators lead e

/-- An enumeration without its operators: both checks come before its lines. -/
def checkedEnumeration (lead : String) (e : IntLike) : Emission Unit := do
  Emission.check (enumerationFault e)
  let synthesized ← Emission.lift (needsNone e)
  Emission.block ((enumerationWith lead e synthesized).lines (valueWidth e))

theorem declareType_intLike_eq (lead : String) (e : IntLike) : declareType lead (.intLike e) =
    (checkedEnumeration lead e >>= fun _ => .block (enumerationWith lead e false).operators) := by
  rw [declareType, enumeration, checkedEnumeration]
  cases enumerationFault e with
  | some fault => rfl
  | none =>
    cases needsNone e with
    | error fault => rfl
    | ok synthesized => rfl

theorem isEmpty_enumerationWith (lead : String) {e : IntLike} {synthesized : Bool}
    (h : needsNone e = .ok synthesized) :
    (enumerationWith lead e synthesized).enumerators.isEmpty = !(!e.values.isEmpty || e.flags) := by
  have hsynthesized := needsNone_eq_ok h
  cases hvalues : e.values with
  | nil =>
    have hfree : e.declaresNone = false := by rw [IntLike.declaresNone, hvalues, List.any_nil]
    rw [hfree, Bool.not_false, Bool.and_true] at hsynthesized
    cases hflags : e.flags <;>
      simp [enumerationWith, declaredEnumerators, hvalues, hsynthesized, hflags]
  | cons v rest => simp [enumerationWith, declaredEnumerators, hvalues]

/-- The lines between the braces of an enumeration, behind the end of the line that opens it. -/
theorem appends_writeEnumerators (lead : String) {e : IntLike} {synthesized : Bool}
    (h : needsNone e = .ok synthesized) :
    (writeEnumerators lead e synthesized).Appends (.ok ())
      (if (enumerationWith lead e synthesized).enumerators.isEmpty then ""
        else "\n" ++ unlines ((enumerationWith lead e synthesized).enumerators.map (·.line (valueWidth e)))) := by
  rw [isEmpty_enumerationWith lead h, writeEnumerators]
  cases !e.values.isEmpty || e.flags with
  | false => exact appends_pure ()
  | true =>
    have hlines : unlines ((enumerationWith lead e synthesized).enumerators.map (·.line (valueWidth e))) =
        unlines (if synthesized then [Enumerator.line (valueWidth e) ⟨noneName, "0"⟩] else []) ++
          unlines ((declaredEnumerators lead e).map (·.line (valueWidth e))) := by
      rw [enumerationWith, List.map_append, unlines_append]
      cases synthesized <;> rfl
    simp only [Bool.not_true, Bool.false_eq_true, if_false, if_true, hlines]
    exact (appends_write _).bind_ok ((appends_writeLines _).bind_ok (appends_writeLines _))

theorem carries_writeEnumeration (lead : String) (e : IntLike) :
    (writeEnumeration lead e).Carries (checkedEnumeration lead e) := by
  refine (carries_refuse _).bind fun _ _ => (carries_ofResult _).bind fun synthesized hsynthesized => ?_
  refine ((appends_write _).bind_ok ((appends_writeEnumerators lead hsynthesized).bind_ok
    (appends_writeParagraph _))).congr ?_
  -- the head is completed by its own end, or by the brace that closes an enumeration without lines
  show _ = unlines ((enumerationWith lead e synthesized).lines (valueWidth e))
  rw [Enumeration.lines, unlines_paragraph]
  split
  · rw [unlines_paragraph]
    simp only [enumerationWith, String.append_assoc, String.empty_append]
  · rw [List.cons_append, unlines_cons, unlines_append, unlines_paragraph]
    simp only [enumerationWith, String.append_assoc]

theorem carries_writeOperators (lead : String) (e : IntLike) :
    Carries (if e.flags then writeOperators (mangle e.name) ((canonical lead).named e.name) else pure ())
      (.block (enumerationWith lead e false).operators) := by
  have hflags : (enumerationWith lead e false).flags = e.flags := rfl
  rw [Enumeration.operators, hflags]
  cases e.flags with
  | false => exact appends_pure ()
  | true =>
    refine ((appends_write _).bind_ok ((appends_write _).bind_ok (appends_write _))).congr ?_
    show _ = unlines (_ ++ _ ++ _)
    rw [unlines_append, unlines_append, String.append_assoc]
    rfl

theorem carries_writeType (lead : String) (t : AbiType) : (writeType lead t).Carries (declareType lead t) := by
  cases t with
  | aliasOf name underlying => exact appends_writeParagraph _
  | record name members => exact appends_writeParagraph _
  | void | int _ | atomic _ | pointer _ _ | array _ _ | userDefined _ => exact appends_pure ()
  | intLike e =>
    rw [declareType_intLike_eq]
    exact (carries_writeEnumeration lead e).bind fun _ _ => carries_writeOperators lead e

/-! ### What is appended of a record -/

theorem insideRecord_congr (space : String) {hidden hidden' : List String}
    (h : ∀ n, n ∈ hidden ↔ n ∈ hidden') : insideRecord space hidden = insideRecord space hidden' := by
  simp only [insideRecord, List.contains_eq_mem, h]

theorem indentation_append_blanks (depth : Nat) (text : String) :
    indentation depth ++ ("  " ++ text) = indentation (depth + 1) ++ text := by
  have hblanks : indentation (depth + 1) = indentation depth ++ "  " := by
    apply String.toList_injective
    rw [indentation, indentation, String.toList_append, String.toList_ofList, String.toList_ofList,
      Nat.mul_add, List.replicate_add]
    rfl
  rw [hblanks, String.append_assoc]

theorem Outline.emitAll_append (depth : Nat) (a b : List Outline) :
    emitAll depth (a ++ b) = emitAll depth a >>= fun _ => emitAll depth b := by
  induction a with
  | nil => exact (pure_bind () fun _ => emitAll depth b).symm
  | cons o rest ih => rw [List.cons_append, emitAll, emitAll, ih, bind_assoc]

/-- The names were found to be different, and they are visible. -/
structure Settled (names visible : List String) : Prop where
  distinct : names.Nodup
  seen : names ⊆ visible

namespace Settled

variable {a b visible : List String}

theorem left (h : Settled (a ++ b) visible) : Settled a visible :=
  ⟨(List.nodup_append.1 h.distinct).1, fun _ hn => h.seen (List.mem_append_left _ hn)⟩

theorem right (h : Settled (a ++ b) visible) : Settled b visible :=
  ⟨(List.nodup_append.1 h.distinct).2.1, fun _ hn => h.seen (List.mem_append_right _ hn)⟩

theorem own (h : a.Nodup) (visible : List String) : Settled a (a ++ visible) :=
  ⟨h, List.subset_append_left ..⟩

/-- Names that are visible already hide nothing more. -/
theorem mem_append_iff (h : Settled a visible) (n : String) : n ∈ a ++ visible ↔ n ∈ visible := by
  rw [List.mem_append]
  exact ⟨fun hn => hn.elim (fun ha => h.seen ha) id, .inr⟩

end Settled

section

variable (s : RecordSettings)

-- The writer takes the names of a hoisted list in once more, so the visible names of both sides are the same
-- up to order and repetition. The check on such a list passes, because its names stand in a scope that was
-- checked before.
mutual

theorem carries_writeMember (scope : String) (depth : Nat) {visible visible' : List String}
    (hsame : ∀ n, n ∈ visible ↔ n ∈ visible') (m : Member) (h : Settled (memberNames m) visible) :
    (writeMember s scope depth visible m).Carries ((outlineMember s scope visible' m).emit depth) := by
  cases m with
  | simple name type =>
    rw [writeMember, outlineMember, Outline.emit, insideRecord_congr s.space hsame]
    exact (carries_ofResult _).bind fun _ _ => carries_writeLine _
  | variant alternatives =>
    rw [memberNames] at h
    rw [writeMember, outlineMember, Outline.emit]
    exact (carries_writeLine _).bind fun _ _ =>
      (carries_writeAlternatives scope depth hsame alternatives h).bind fun _ _ => carries_writeLine _
  | range name target constant baseName lengthName =>
    rw [writeMember, outlineMember, Outline.emit, insideRecord_congr s.space hsame]
    exact carries_ofResult_map _ _ fun _ => carries_writeLine _

theorem carries_writeMembers (scope : String) (depth : Nat) {visible visible' : List String}
    (hsame : ∀ n, n ∈ visible ↔ n ∈ visible') (ms : List Member) (h : Settled (declaredNames ms) visible) :
    (writeMembers s scope depth visible ms).Carries
      (Outline.emitAll depth (outlineMembers s scope visible' ms)) := by
  cases ms with
  | nil => exact carries_pure ()
  | cons m rest =>
    rw [declaredNames] at h
    rw [writeMembers, outlineMembers, Outline.emitAll]
    exact (carries_writeMember scope depth hsame m h.left).bind fun _ _ =>
      carries_writeMembers scope depth hsame rest h.right

theorem carries_writeAlternative (scope : String) (depth : Nat) {visible visible' : List String}
    (hsame : ∀ n, n ∈ visible ↔ n ∈ visible') (a : Alternative) (h : Settled (alternativeNames a) visible) :
    (writeAlternative s scope depth visible a).Carries
      (Outline.emitAll (depth + 1) (outlineAlternative s scope visible' a)) := by
  match a with
  | .mk none members =>
    rw [alternativeNames] at h
    have hhoisted : ∀ n, n ∈ declaredNames members ++ visible ↔ n ∈ visible' :=
      fun n => (h.mem_append_iff n).trans (hsame n)
    have hmembers := carries_writeMembers scope (depth + 1) hhoisted members (.own h.distinct visible)
    rw [writeAlternative, outlineAlternative, (scopeFault_eq_none_iff scope members).2 h.distinct]
    exact hmembers
  | .mk (some name) members =>
    have hinside : ∀ n, n ∈ declaredNames members ++ visible ↔ n ∈ declaredNames members ++ visible' := by
      intro n
      rw [List.mem_append, List.mem_append, hsame]
    have hopen : indentation depth ++ "  struct \x7b" = indentation (depth + 1) ++ "struct \x7b" :=
      indentation_append_blanks depth "struct \x7b"
    have hclose : indentation depth ++ "  \x7d " ++ mangle name ++ ";" =
        indentation (depth + 1) ++ "\x7d " ++ mangle name ++ ";" := by
      rw [← indentation_append_blanks depth "\x7d "]
      rfl
    have hnested : Outline.emitAll (depth + 1) (outlineAlternative s scope visible' (.mk (some name) members)) =
        Outline.emit (depth + 1) (.nested (mangle name) (scopeFault (scope ++ "." ++ mangle name) members)
          (outlineMembers s (scope ++ "." ++ mangle name) (declaredNames members ++ visible') members)) := by
      rw [outlineAlternative, Outline.emitAll]
      exact bind_pure_unit
    rw [hnested, writeAlternative, Outline.emit, hopen, hclose]
    refine (carries_writeLine _).bind fun _ _ => (carries_refuse _).bind fun _ hchecked => ?_
    rw [Emission.check_result_eq_ok_iff, scopeFault_eq_none_iff] at hchecked
    exact (carries_writeMembers _ (depth + 2) hinside members (.own hchecked visible)).bind
      fun _ _ => carries_writeLine _

theorem carries_writeAlternatives (scope : String) (depth : Nat) {visible visible' : List String}
    (hsame : ∀ n, n ∈ visible ↔ n ∈ visible') (as : List Alternative)
    (h : Settled (alternativesNames as) visible) :
    (writeAlternatives s scope depth visible as).Carries
      (Outline.emitAll (depth + 1) (outlineAlternatives s scope visible' as)) := by
  cases as with
  | nil => exact carries_pure ()
  | cons a rest =>
    rw [alternativesNames] at h
    rw [writeAlternatives, outlineAlternatives, Outline.emitAll_append]
    exact (carries_writeAlternative scope depth hsame a h.left).bind fun _ _ =>
      carries_writeAlternatives scope depth hsame rest h.right

end

end

theorem carries_writeAssertions (name cname : String) (members : List Member)
    (lengthMember : Option String) : (writeAssertions name cname members lengthMember).Carries
      (assertLayout name cname members lengthMember) := by
  have htwo : ∀ a b, (writeLine a >>= fun _ => writeLine b).Carries (.block [a, b]) := by
    intro a b
    refine ((appends_writeLine a).bind_ok (appends_writeLine b)).congr ?_
    show _ = unlines [a, b]
    rw [unlines_cons, unlines_singleton]
  have hboth : writeAssertions name cname members lengthMember = do
      (do writeLine (equalityAssertion ("sizeof(" ++ name ++ ")") ("sizeof(" ++ cname ++ ")"))
          writeLine (equalityAssertion ("alignof(" ++ name ++ ")") ("alignof(" ++ cname ++ ")")))
      writeLines ((sharedOffsets members lengthMember).map (offsetAssertion name cname))
      return (sharedOffsets members lengthMember).length := by
    rw [writeAssertions, bind_assoc]
  rw [hboth, assertLayout]
  exact (htwo _ _).bind fun _ _ => (carries_writeLines _).bind fun _ _ => carries_pure _

theorem carries_writeRecord (s : RecordSettings) (lead : String) (r : Record) :
    (writeRecord s lead r).Carries (defineRecord s lead r) := by
  have hend : (write "\n").Carries (.line "") := carries_writeLine ""
  rw [writeRecord, defineRecord, outlineRecord]
  refine (carries_writeLine _).bind fun _ _ => (carries_refuse _).bind fun _ hchecked => ?_
  rw [Emission.check_result_eq_ok_iff, scopeFault_eq_none_iff] at hchecked
  have hown : Settled (declaredNames r.members) (declaredNames r.members) :=
    ⟨hchecked, List.Subset.refl _⟩
  have hmembers := carries_writeMembers s (mangle r.name) 1 (fun _ => Iff.rfl) r.members hown
  exact hmembers.bind fun _ _ => (carries_writeLine _).bind fun _ _ =>
    (carries_writeAssertions _ _ _ _).bind fun _ _ => hend.bind fun _ _ => carries_pure _

end AbiLayout.Cpp
