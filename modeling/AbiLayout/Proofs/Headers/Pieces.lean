import AbiLayout.Cpp.Header
import AbiLayout.Proofs.Records.Agreement
import Mathlib.Data.List.Forall2

/-!
# Pieces of headers

Between its head and its foot a header holds pieces. Main statements: a list of types that is declared
has one light declaration for each type that can have one, a list of records that is defined has one
definition for each, and their names are those of the types.
-/

namespace AbiLayout

/-- The name that a type has a light declaration for. -/
def AbiType.lightName? : AbiType → Option String
  | .aliasOf name _ => some name
  | .intLike body => some body.name
  | .record name _ => some name
  | .void | .int _ | .atomic _ | .pointer _ _ | .array _ _ | .userDefined _ => none

theorem AbiType.name?_of_lightName? (t : AbiType) {name : String} (h : t.lightName? = some name) :
    t.name? = some name := by
  cases t <;> first | exact h | cases h

theorem AbiType.lightName?_of_record? {t : AbiType} {r : Record} (h : t.record? = some r) :
    t.lightName? = some r.name := by
  cases t with
  | record name members =>
    cases h
    rfl
  | _ => cases h

end AbiLayout

namespace AbiLayout.Cpp

/-! ### Light declarations -/

/-- A light declaration as it is written. -/
inductive LightDeclaration where
  | aliasOf (name cname : String)
  | enumeration (width : Nat) (e : Enumeration)
  | announcement (name : String)

def LightDeclaration.name : LightDeclaration → String
  | aliasOf name _ => name
  | enumeration _ e => e.name
  | announcement name => name

def LightDeclaration.lines : LightDeclaration → List String
  | aliasOf name cname => ["using " ++ name ++ " = " ++ cname ++ ";", ""]
  | enumeration width e => e.lines width ++ e.operators
  | announcement name => ["struct " ++ name ++ ";", ""]

def lightDeclaration (lead : String) : AbiType → Except RenderError (Option LightDeclaration)
  | .aliasOf name _ => .ok (some (.aliasOf (mangle name) ((canonical lead).named name)))
  | .intLike body => do return some (.enumeration (valueWidth body) (← enumeration lead body))
  | .record name _ => .ok (some (.announcement (mangle name)))
  | .void | .int _ | .atomic _ | .pointer _ _ | .array _ _ | .userDefined _ => .ok none

def lightDeclarations (lead : String) : List AbiType → Except RenderError (List LightDeclaration)
  | [] => .ok []
  | t :: rest => do
    let first ← lightDeclaration lead t
    return first.toList ++ (← lightDeclarations lead rest)

theorem declareType_eq (lead : String) (t : AbiType) :
    declareType lead t = (do
      let d ← Emission.lift (lightDeclaration lead t)
      .block (d.toList.flatMap LightDeclaration.lines)) := by
  cases t with
  | intLike body =>
    rw [declareType, lightDeclaration]
    cases enumeration lead body with
    | error e => rfl
    | ok e =>
      show Emission.mk _ _ = Emission.mk _ _
      simp [LightDeclaration.lines, Emission.lift]
  | _ => rfl

/-- The light declarations of a list of types are written as soon as there is one for each of them. -/
theorem declareTypes_eq_ok {lead : String} {types : List AbiType}
    (h : (declareTypes lead types).result = .ok ()) :
    ∃ ds, lightDeclarations lead types = .ok ds ∧
      declareTypes lead types = ⟨ds.flatMap LightDeclaration.lines, .ok ()⟩ := by
  induction types with
  | nil => exact ⟨[], rfl, rfl⟩
  | cons t rest ih =>
    rw [declareTypes, declareType_eq] at h ⊢
    obtain ⟨_, ht, hrest⟩ := (Emission.result_bind_eq_ok_iff _ _ _).1 h
    obtain ⟨d, hd, _⟩ := (Emission.result_bind_eq_ok_iff _ _ _).1 ht
    rw [Emission.lift_result] at hd
    obtain ⟨ds, hds, hlines⟩ := ih hrest
    refine ⟨d.toList ++ ds, ?_, ?_⟩
    · rw [lightDeclarations, hd, hds]
      rfl
    · rw [hd, hlines, Emission.lift, Emission.mk_ok_bind, Emission.block, Emission.mk_ok_bind,
        List.flatMap_append, List.nil_append]

theorem name_of_enumeration {lead : String} {body : IntLike} {e : Enumeration}
    (h : enumeration lead body = .ok e) : e.name = mangle body.name := by
  unfold enumeration at h
  split at h
  · cases h
  · obtain ⟨_, _, h⟩ := (bind_eq_ok_iff _ _ _).1 h
    cases h
    rfl

theorem name_of_lightDeclaration {lead : String} {t : AbiType} {d : Option LightDeclaration}
    (h : lightDeclaration lead t = .ok d) :
    d.map LightDeclaration.name = t.lightName?.map mangle := by
  cases t with
  | intLike body =>
    obtain ⟨e, he, hd⟩ := (bind_eq_ok_iff _ _ _).1 h
    cases hd
    exact congrArg some (name_of_enumeration he)
  | _ =>
    cases h
    rfl

theorem names_of_lightDeclarations {lead : String} {types : List AbiType}
    {ds : List LightDeclaration} (h : lightDeclarations lead types = .ok ds) :
    ds.map LightDeclaration.name = (types.filterMap AbiType.lightName?).map mangle := by
  induction types generalizing ds with
  | nil =>
    cases h
    rfl
  | cons t rest ih =>
    obtain ⟨d, hd, h⟩ := (bind_eq_ok_iff _ _ _).1 h
    obtain ⟨others, hothers, h⟩ := (bind_eq_ok_iff _ _ _).1 h
    cases h
    have hname := name_of_lightDeclaration hd
    rw [List.map_append, ih hothers, ← Option.toList_map, hname, List.filterMap_cons]
    cases t.lightName? <;> rfl

/-! ### Record definitions -/

/-- The record `r` has a body, and `d` is its definition. -/
def DefinedAs (s : RecordSettings) (lead : String) (r : Record) (d : RecordDefinition) : Prop :=
  ∃ body, Body.outlineAll body = outlineRecord s r ∧ d = Record.definition s lead r body

/-- The definitions of a list of records are written as soon as there is one for each of them. -/
theorem defineRecords_eq_ok {s : RecordSettings} {lead : String} {records : List Record} {n : Nat}
    (h : (defineRecords s lead records).result = .ok n) :
    ∃ ds, List.Forall₂ (DefinedAs s lead) records ds ∧
      defineRecords s lead records = ⟨ds.flatMap RecordDefinition.lines, .ok n⟩ := by
  induction records generalizing n with
  | nil =>
    cases h
    exact ⟨[], .nil, rfl⟩
  | cons r rest ih =>
    rw [defineRecords] at h ⊢
    obtain ⟨first, hr, h⟩ := (Emission.result_bind_eq_ok_iff _ _ _).1 h
    obtain ⟨others, hrest, h⟩ := (Emission.result_bind_eq_ok_iff _ _ _).1 h
    cases h
    obtain ⟨hscope, body, hbody⟩ := exists_body_of_defineRecord hr
    rw [defineRecord_of_body s lead r body hscope hbody] at hr ⊢
    cases hr
    obtain ⟨ds, hds, hlines⟩ := ih hrest
    refine ⟨Record.definition s lead r body :: ds, .cons ⟨body, hbody, rfl⟩ hds, ?_⟩
    rw [hlines, Emission.mk_ok_bind, Emission.mk_ok_bind, List.flatMap_cons]
    simp [pure, Emission.value]

theorem names_of_definitions {s : RecordSettings} {lead : String} {records : List Record}
    {ds : List RecordDefinition} (h : List.Forall₂ (DefinedAs s lead) records ds) :
    ds.map RecordDefinition.name = (records.map Record.name).map mangle := by
  induction h with
  | nil => rfl
  | cons hd _ ih =>
    obtain ⟨body, _, rfl⟩ := hd
    rw [List.map_cons, ih]
    rfl

/-- The text of a header with these lines between its head and its foot. -/
def headerText (abi space : String) (a : HeaderFrame) (pieces : List String) : String :=
  unlines (headerHead abi space a ++ pieces ++ headerFoot a)

end AbiLayout.Cpp
