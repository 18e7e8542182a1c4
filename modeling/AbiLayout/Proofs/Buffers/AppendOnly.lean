import AbiLayout.Proofs.Buffers.Declarations
import AbiLayout.Proofs.Headers.Lines

/-!
# Buffers only grow

Main statement: what is written of a type, of a record or of its assertions is put behind what a buffer holds,
and neither it nor the result depends on that. A type that is refused leaves nothing; a record that is given up
leaves the line that opens it and whole lines of its body, up to the fault, and no assertion.
-/

namespace AbiLayout.Cpp

/-! ### Lines up to a fault -/

/-- The lines are the first of `full`, and all of them if the emission finishes. -/
def Emission.Begins {α : Type} (x : Emission α) (full : List String) : Prop :=
  x.lines <+: full ∧ ∀ a, x.result = .ok a → x.lines = full

theorem Emission.Begins.bind {α β : Type} {x : Emission α} {f : α → Emission β} {first second : List String}
    (hx : x.Begins first) (hf : ∀ a, x.result = .ok a → (f a).Begins second) :
    (x >>= f).Begins (first ++ second) := by
  obtain ⟨lines, result⟩ := x
  cases result with
  | error e =>
    refine ⟨hx.1.trans (List.prefix_append _ _), fun a ha => ?_⟩
    cases ha
  | ok a =>
    have hfirst : lines = first := hx.2 a rfl
    obtain ⟨hbegun, hall⟩ := hf a rfl
    rw [mk_ok_bind, ← hfirst]
    exact ⟨(List.prefix_append_right_inj _).2 hbegun, fun b hb => congrArg _ (hall b hb)⟩

theorem Emission.begins_line (text : String) : (Emission.line text).Begins [text] :=
  ⟨List.prefix_refl _, fun _ _ => rfl⟩

namespace Outline

mutual

/-- The lines of a declaration at a depth; a field that is at fault has none. -/
def lines (depth : Nat) : Outline → List String
  | .field _ text => text.toOption.toList.map fun declaration => indentation depth ++ declaration ++ ";"
  | .union body =>
    (indentation depth ++ "union \x7b") :: linesAll (depth + 1) body ++ [indentation depth ++ "\x7d;"]
  | .nested name _ body =>
    (indentation depth ++ "struct \x7b") :: linesAll (depth + 1) body ++
      [indentation depth ++ "\x7d " ++ name ++ ";"]

def linesAll (depth : Nat) : List Outline → List String
  | [] => []
  | o :: rest => lines depth o ++ linesAll depth rest

end

mutual

/-- A declaration is written line by line up to its first fault. -/
theorem begins_emit (depth : Nat) (o : Outline) : (o.emit depth).Begins (o.lines depth) := by
  cases o with
  | field name text =>
    rw [emit, lines]
    cases text with
    | error e =>
      refine ⟨List.nil_prefix, fun a ha => ?_⟩
      cases ha
    | ok declaration => exact ⟨List.prefix_refl _, fun _ _ => rfl⟩
  | union body =>
    rw [emit, lines]
    exact (Emission.begins_line _).bind fun _ _ =>
      (begins_emitAll (depth + 1) body).bind fun _ _ => Emission.begins_line _
  | nested name fault body =>
    have hcheck : (Emission.check fault).Begins [] := by
      cases fault <;> exact ⟨List.prefix_refl _, fun _ _ => rfl⟩
    rw [emit, lines]
    exact (Emission.begins_line _).bind fun _ _ => hcheck.bind fun _ _ =>
      (begins_emitAll (depth + 1) body).bind fun _ _ => Emission.begins_line _

theorem begins_emitAll (depth : Nat) (os : List Outline) : (emitAll depth os).Begins (linesAll depth os) := by
  cases os with
  | nil => exact ⟨List.prefix_refl _, fun _ _ => rfl⟩
  | cons o rest =>
    rw [emitAll, linesAll]
    exact (begins_emit depth o).bind fun _ _ => begins_emitAll depth rest

end

mutual

theorem indented (depth : Nat) (o : Outline) : ∀ line ∈ o.lines (depth + 1), ∃ rest, line = "  " ++ rest := by
  have hline : ∀ text, ∃ rest, indentation (depth + 1) ++ text = "  " ++ rest := by
    intro text
    exact ⟨indentation depth ++ text, by rw [indentation_succ, String.append_assoc]⟩
  intro line hmem
  cases o with
  | field name text =>
    rw [lines, List.mem_map] at hmem
    obtain ⟨declaration, _, rfl⟩ := hmem
    rw [String.append_assoc]
    exact hline _
  | union body =>
    rw [lines, List.cons_append, List.mem_cons, List.mem_append, List.mem_singleton] at hmem
    rcases hmem with rfl | hmem | rfl
    · exact hline _
    · exact indentedAll (depth + 1) body line hmem
    · exact hline _
  | nested name fault body =>
    rw [lines, List.cons_append, List.mem_cons, List.mem_append, List.mem_singleton] at hmem
    rcases hmem with rfl | hmem | rfl
    · exact hline _
    · exact indentedAll (depth + 1) body line hmem
    · rw [String.append_assoc, String.append_assoc]
      exact hline _

theorem indentedAll (depth : Nat) (os : List Outline) :
    ∀ line ∈ linesAll (depth + 1) os, ∃ rest, line = "  " ++ rest := by
  intro line hmem
  cases os with
  | nil => cases hmem
  | cons o rest =>
    rw [linesAll, List.mem_append] at hmem
    rcases hmem with hmem | hmem
    · exact indented depth o line hmem
    · exact indentedAll depth rest line hmem

end

end Outline

/-! ### Types that are refused -/

theorem declareType_lines_of_refused {lead : String} {t : AbiType} {e : RenderError}
    (h : (declareType lead t).result = .error e) : (declareType lead t).lines = [] := by
  cases t with
  | intLike body =>
    rw [declareType] at h ⊢
    cases henumeration : enumeration lead body with
    | error fault => rfl
    | ok x =>
      rw [henumeration] at h
      cases h
  | void | int _ | atomic _ | pointer _ _ | array _ _ | aliasOf _ _ | userDefined _ | record _ _ => cases h

/-! ### Records that are given up -/

/-- What a record leaves that is given up: the line that opens it and lines of its body up to the fault, none of
which is an assertion; only the first line if the record itself declares a name twice. -/
structure Unfinished (s : RecordSettings) (r : Record) (lines : List String) : Prop where
  begun : ∃ body, lines = ("struct " ++ mangle r.name ++ " \x7b") :: body ∧
    body <+: Outline.linesAll 1 (outlineRecord s r)
  unasserted : ∀ line ∈ lines, beginsWith "static_assert(" line = false
  duplicate : ¬ (declaredNames r.members).Nodup → lines = ["struct " ++ mangle r.name ++ " \x7b"]

theorem unasserted_of_begun (s : RecordSettings) (r : Record) {body : List String}
    (h : body <+: Outline.linesAll 1 (outlineRecord s r)) :
    ∀ line ∈ ("struct " ++ mangle r.name ++ " \x7b") :: body, beginsWith "static_assert(" line = false := by
  intro line hline
  rcases List.mem_cons.1 hline with rfl | hline
  · rw [String.append_assoc]
    exact beginsWith_append_of_differ _ (by decide)
  · obtain ⟨rest, rfl⟩ := Outline.indentedAll 0 _ line (h.subset hline)
    exact beginsWith_append_of_differ rest (by decide)

theorem defineRecord_unfinished {s : RecordSettings} {lead : String} {r : Record} {e : RenderError}
    (h : (defineRecord s lead r).result = .error e) : Unfinished s r (defineRecord s lead r).lines := by
  cases hscope : scopeFault (mangle r.name) r.members with
  | some fault =>
    have hlines : (defineRecord s lead r).lines = ["struct " ++ mangle r.name ++ " \x7b"] := by
      rw [defineRecord, hscope]
      rfl
    rw [hlines]
    exact ⟨⟨[], rfl, List.nil_prefix⟩, unasserted_of_begun s r List.nil_prefix, fun _ => rfl⟩
  | none =>
    have hdistinct := (scopeFault_eq_none_iff _ _).1 hscope
    have hbegins := Outline.begins_emitAll 1 (outlineRecord s r)
    cases hbody : Outline.emitAll 1 (outlineRecord s r) with
    | mk body result =>
      rw [hbody] at hbegins
      cases result with
      | ok u =>
        -- behind its body nothing keeps a record from being finished
        rw [defineRecord, hscope, hbody] at h
        cases h
      | error fault =>
        have hlines : (defineRecord s lead r).lines = ("struct " ++ mangle r.name ++ " \x7b") :: body := by
          rw [defineRecord, hscope, hbody]
          rfl
        rw [hlines]
        exact ⟨⟨body, rfl, hbegins.1⟩, unasserted_of_begun s r hbegins.1, fun hdup => absurd hdistinct hdup⟩

/-! ### All writers -/

/-- Writing a type, a record or the assertions of a layout leaves what the buffer held in front, and what is put
behind it and the result are the same for every buffer. A type that is refused leaves the buffer as it was. A
record that is given up leaves its first line and whole lines of its body. Assertions are always finished. -/
theorem writers_only_append (s : RecordSettings) (lead : String) :
    (∀ t, (∀ buffer, (writeType lead t).on buffer =
        ((declareType lead t).result, buffer ++ unlines (declareType lead t).lines)) ∧
      ∀ e, (declareType lead t).result = .error e →
        ∀ buffer, (writeType lead t).on buffer = (.error e, buffer)) ∧
    (∀ r, (∀ buffer, (writeRecord s lead r).on buffer =
        ((defineRecord s lead r).result, buffer ++ unlines (defineRecord s lead r).lines)) ∧
      ∀ e, (defineRecord s lead r).result = .error e → Unfinished s r (defineRecord s lead r).lines) ∧
    ∀ name cname members lengthMember buffer, (writeAssertions name cname members lengthMember).on buffer =
      (.ok (sharedOffsets members lengthMember).length,
        buffer ++ unlines (assertLayout name cname members lengthMember).lines) := by
  refine ⟨fun t => ⟨carries_writeType lead t, fun e he buffer => ?_⟩, fun r => ⟨carries_writeRecord s lead r,
    fun e he => defineRecord_unfinished he⟩, carries_writeAssertions⟩
  have hbuffer := carries_writeType lead t buffer
  rw [Emission.text, he, declareType_lines_of_refused he] at hbuffer
  exact hbuffer.trans (congrArg _ String.append_empty)

/-- A record whose alternative holds a void behind a field that can be declared. -/
def torn : Record where
  name := "conn"
  members :=
    [.simple "kind" (.int .uint8),
      .variant [.mk none [.simple "fd" (.userDefined "fd")],
        .mk (some "in") [.simple "at" (.int .uint32), .simple "gone" .void]],
      .simple "last" (.int .uint8)]

/-- A record that declares the same name itself and through an alternative without a name. -/
def hoistedTwice : Record where
  name := "pair"
  members := [.simple "x" (.int .uint8), .variant [.mk none [.simple "x" (.int .uint8)]]]

/-- Values of one name. -/
def echoes : IntLike := ⟨"echo", .uint8, true, none, [⟨"ping", 1⟩, ⟨"ping", 2⟩]⟩

theorem writers_only_append_torn :
    (writeType "cloudabi_" (.intLike echoes)).on "// head\n" =
      (.error (.duplicateIdentifier "echo" "ping"), "// head\n") ∧
    (writeRecord ⟨"cloudabi", "mstd::range", none⟩ "cloudabi_" torn).on "// head\n" =
      (.error (.voidValue "gone"), "// head\n" ++ unlines
        ["struct conn \x7b", "  std::uint8_t kind;", "  union \x7b", "    cloudabi::fd fd;",
          "    struct \x7b", "      std::uint32_t at;"]) ∧
    Unfinished ⟨"cloudabi", "mstd::range", none⟩ torn
      (defineRecord ⟨"cloudabi", "mstd::range", none⟩ "cloudabi_" torn).lines ∧
    (defineRecord ⟨"cloudabi", "mstd::range", none⟩ "cloudabi_" hoistedTwice).result =
      .error (.duplicateIdentifier "pair" "x") ∧
    (defineRecord ⟨"cloudabi", "mstd::range", none⟩ "cloudabi_" hoistedTwice).lines = ["struct pair \x7b"] := by
  obtain ⟨htypes, hrecords, -⟩ := writers_only_append ⟨"cloudabi", "mstd::range", none⟩ "cloudabi_"
  have hechoes : (declareType "cloudabi_" (.intLike echoes)).result =
      .error (.duplicateIdentifier "echo" "ping") := by rfl
  have htorn : (defineRecord ⟨"cloudabi", "mstd::range", none⟩ "cloudabi_" torn).result =
      .error (.voidValue "gone") := by rfl
  have hlines : (defineRecord ⟨"cloudabi", "mstd::range", none⟩ "cloudabi_" torn).lines =
      ["struct conn \x7b", "  std::uint8_t kind;", "  union \x7b", "    cloudabi::fd fd;",
        "    struct \x7b", "      std::uint32_t at;"] := by rfl
  have hclashing : (defineRecord ⟨"cloudabi", "mstd::range", none⟩ "cloudabi_" hoistedTwice).result =
      .error (.duplicateIdentifier "pair" "x") := by rfl
  have hbuffer := (hrecords torn).1 "// head\n"
  rw [htorn, hlines] at hbuffer
  exact ⟨(htypes _).2 _ hechoes _, hbuffer, (hrecords torn).2 _ htorn, hclashing,
    ((hrecords hoistedTwice).2 _ hclashing).duplicate (by decide)⟩

end AbiLayout.Cpp
