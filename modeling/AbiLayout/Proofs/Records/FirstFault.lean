import AbiLayout.Cpp.Declaration
import AbiLayout.Proofs.Declarators.Refusal
import AbiLayout.Proofs.Records.Fault
import AbiLayout.Proofs.Records.Scopes
import AbiLayout.Proofs.Sequence

/-!
# What keeps a type from being written

The first fault of a record or of an enumeration, told from the description alone. Main statements: a
record is refused with the first fault of its members, in the order of their lines, and an enumeration
with the fault of its values, whatever the namespace, the canonical names and the view of ranges are.
-/

namespace AbiLayout.Cpp

/-! ### Records -/

mutual

/-- The first fault of a member of the scope `scope`. -/
def memberFault? (scope : String) : Member → Option RenderError
  | .simple name type => type.refusal? (.name (mangle name))
  | .variant alternatives => alternativesFault? scope alternatives
  | .range _ target _ _ _ => target.refusal? .nameless

def membersFault? (scope : String) : List Member → Option RenderError
  | [] => none
  | m :: rest => (memberFault? scope m).or (membersFault? scope rest)

/-- A named alternative is a scope of its own, whose names are compared before its members are looked
at. -/
def alternativeFault? (scope : String) : Alternative → Option RenderError
  | .mk none members => membersFault? scope members
  | .mk (some name) members =>
    (scopeFault (scope ++ "." ++ mangle name) members).or
      (membersFault? (scope ++ "." ++ mangle name) members)

def alternativesFault? (scope : String) : List Alternative → Option RenderError
  | [] => none
  | a :: rest => (alternativeFault? scope a).or (alternativesFault? scope rest)

end

def recordFault? (r : Record) : Option RenderError :=
  (scopeFault (mangle r.name) r.members).or (membersFault? (mangle r.name) r.members)

theorem fault?_field (name : String) (text : Except RenderError String) :
    (Outline.field name text).fault? = faultOf text := by
  cases text <;> rfl

section

variable (s : RecordSettings)

mutual

theorem fault?_outlineMember (scope : String) (visible : List String) (m : Member) :
    (outlineMember s scope visible m).fault? = memberFault? scope m := by
  cases m with
  | simple name type => rw [outlineMember, fault?_field, faultOf_declaration, memberFault?]
  | variant alternatives =>
    rw [outlineMember, Outline.fault?, faultAll?_outlineAlternatives scope visible alternatives,
      memberFault?]
  | range name target constant baseName lengthName =>
    rw [outlineMember, fault?_field, memberFault?, ← faultOf_spell]
    exact faultOf_bind_pure _ _

theorem faultAll?_outlineMembers (scope : String) (visible : List String) (ms : List Member) :
    Outline.faultAll? (outlineMembers s scope visible ms) = membersFault? scope ms := by
  cases ms with
  | nil => rfl
  | cons m rest =>
    rw [outlineMembers, Outline.faultAll?, fault?_outlineMember scope visible m,
      faultAll?_outlineMembers scope visible rest, membersFault?]

theorem faultAll?_outlineAlternative (scope : String) (visible : List String) (a : Alternative) :
    Outline.faultAll? (outlineAlternative s scope visible a) = alternativeFault? scope a := by
  match a with
  | .mk none members =>
    rw [outlineAlternative, faultAll?_outlineMembers scope visible members, alternativeFault?]
  | .mk (some name) members =>
    rw [outlineAlternative, Outline.faultAll?, Outline.faultAll?, Option.or_none, Outline.fault?,
      faultAll?_outlineMembers _ _ members, alternativeFault?]

theorem faultAll?_outlineAlternatives (scope : String) (visible : List String)
    (as : List Alternative) :
    Outline.faultAll? (outlineAlternatives s scope visible as) = alternativesFault? scope as := by
  cases as with
  | nil => rfl
  | cons a rest =>
    rw [outlineAlternatives, Outline.faultAll?_append, faultAll?_outlineAlternative scope visible a,
      faultAll?_outlineAlternatives scope visible rest, alternativesFault?]

end

/-- A record is refused with its first fault, whatever the settings are. -/
theorem defineRecord_fault? (lead : String) (r : Record) :
    (defineRecord s lead r).fault? = recordFault? r := by
  have hcheck : ∀ fault : Option RenderError, (Emission.check fault).fault? = fault := by
    intro fault
    cases fault <;> rfl
  have hbody : (Outline.emitAll 1 (outlineRecord s r)).fault? = membersFault? (mangle r.name) r.members := by
    rw [Emission.fault?, Outline.result_emitAll, ← Emission.fault?, hcheck, outlineRecord,
      faultAll?_outlineMembers]
  rw [defineRecord, Emission.fault?_bind_of_ok (a := ()) rfl, recordFault?]
  cases hscope : scopeFault (mangle r.name) r.members with
  | some e => exact Emission.fault?_bind_of_fault (hcheck (some e)) _
  | none =>
    rw [Emission.fault?_bind_of_ok (a := ()) rfl, Option.none_or, ← hbody]
    exact Emission.fault?_bind_of_finishes _ fun _ => rfl

end

/-! ### Enumerations -/

/-- The fault of an enumeration: two values of one name, or a `none` of a flags type that is not zero. -/
def intLikeFault? (e : IntLike) : Option RenderError :=
  (enumerationFault e).or (faultOf (needsNone e))

theorem declareType_intLike_fault? (lead : String) (e : IntLike) :
    (declareType lead (.intLike e)).fault? = intLikeFault? e := by
  have henumeration : faultOf (enumeration lead e) = intLikeFault? e := by
    unfold enumeration intLikeFault?
    cases enumerationFault e with
    | some fault => rfl
    | none => exact faultOf_bind_pure (needsNone e) _
  rw [← henumeration, declareType]
  exact Emission.fault?_bind_of_finishes _ fun _ => rfl

end AbiLayout.Cpp
