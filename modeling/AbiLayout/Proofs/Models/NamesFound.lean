import AbiLayout.Description.NamedPart

/-!
# Where names are found

A type holds its own names and, at any depth, those of the types and members that it is built from. Main
statement: the walk over a type meets the names that it holds, and no others.
-/

namespace AbiLayout

mutual

/-- The type holds a name of a kind: its own, that of one of its values, or one inside the types and members
it is built from. -/
inductive AbiType.Holds : AbiType → NamedPart → Prop where
  | atomic {target : AbiType} {p : NamedPart} (h : AbiType.Holds target p) :
    AbiType.Holds (.atomic target) p
  | pointer {target : AbiType} {constant : Bool} {p : NamedPart} (h : AbiType.Holds target p) :
    AbiType.Holds (.pointer target constant) p
  | array {element : AbiType} {count : UInt64} {p : NamedPart} (h : AbiType.Holds element p) :
    AbiType.Holds (.array element count) p
  | aliasName {name : String} {underlying : AbiType} :
    AbiType.Holds (.aliasOf name underlying) ⟨.type, name⟩
  | underlying {name : String} {underlying : AbiType} {p : NamedPart} (h : AbiType.Holds underlying p) :
    AbiType.Holds (.aliasOf name underlying) p
  | intLikeName {e : IntLike} : AbiType.Holds (.intLike e) ⟨.type, e.name⟩
  | infixName {e : IntLike} {text : String} (h : e.infixName = some text) :
    AbiType.Holds (.intLike e) ⟨.valueInfix, text⟩
  | value {e : IntLike} {v : NamedValue} (h : v ∈ e.values) : AbiType.Holds (.intLike e) ⟨.value, v.name⟩
  | userDefined {name : String} : AbiType.Holds (.userDefined name) ⟨.type, name⟩
  | recordName {name : String} {members : List Member} :
    AbiType.Holds (.record name members) ⟨.type, name⟩
  | member {name : String} {members : List Member} {m : Member} {p : NamedPart} (hm : m ∈ members)
    (h : Member.Holds m p) : AbiType.Holds (.record name members) p

inductive Member.Holds : Member → NamedPart → Prop where
  | simpleName {name : String} {type : AbiType} : Member.Holds (.simple name type) ⟨.member, name⟩
  | simpleType {name : String} {type : AbiType} {p : NamedPart} (h : AbiType.Holds type p) :
    Member.Holds (.simple name type) p
  | alternative {alternatives : List Alternative} {a : Alternative} {p : NamedPart}
    (ha : a ∈ alternatives) (h : Alternative.Holds a p) : Member.Holds (.variant alternatives) p
  | rangeName {name baseName lengthName : String} {target : AbiType} {constant : Bool} :
    Member.Holds (.range name target constant baseName lengthName) ⟨.member, name⟩
  | rangeBase {name baseName lengthName : String} {target : AbiType} {constant : Bool} :
    Member.Holds (.range name target constant baseName lengthName) ⟨.member, baseName⟩
  | rangeLength {name baseName lengthName : String} {target : AbiType} {constant : Bool} :
    Member.Holds (.range name target constant baseName lengthName) ⟨.member, lengthName⟩
  | rangeTarget {name baseName lengthName : String} {target : AbiType} {constant : Bool} {p : NamedPart}
    (h : AbiType.Holds target p) : Member.Holds (.range name target constant baseName lengthName) p

inductive Alternative.Holds : Alternative → NamedPart → Prop where
  | name {name : String} {members : List Member} :
    Alternative.Holds (.mk (some name) members) ⟨.alternative, name⟩
  | member {name : Option String} {members : List Member} {m : Member} {p : NamedPart} (hm : m ∈ members)
    (h : Member.Holds m p) : Alternative.Holds (.mk name members) p

end

theorem IntLike.mem_names_iff (e : IntLike) (p : NamedPart) :
    p ∈ e.names ↔ (AbiType.intLike e).Holds p := by
  simp only [IntLike.names, List.cons_append, List.mem_cons, List.mem_append, List.mem_map,
    Option.mem_toList]
  constructor
  · rintro (rfl | ⟨text, htext, rfl⟩ | ⟨v, hv, rfl⟩)
    · exact .intLikeName
    · exact .infixName htext
    · exact .value hv
  · intro h
    cases h with
    | intLikeName => exact .inl rfl
    | infixName htext => exact .inr (.inl ⟨_, htext, rfl⟩)
    | value hv => exact .inr (.inr ⟨_, hv, rfl⟩)

-- The walk and the relation go through a type in the same way; a list of members or alternatives holds what
-- one of its entries holds.
mutual

theorem AbiType.mem_names_iff (t : AbiType) (p : NamedPart) : p ∈ t.names ↔ t.Holds p := by
  cases t with
  | void =>
    rw [AbiType.names]
    exact ⟨fun h => (List.not_mem_nil h).elim, fun h => nomatch h⟩
  | int kind =>
    rw [AbiType.names]
    exact ⟨fun h => (List.not_mem_nil h).elim, fun h => nomatch h⟩
  | atomic target =>
    rw [AbiType.names, target.mem_names_iff p]
    exact ⟨.atomic, fun | .atomic h => h⟩
  | pointer target constant =>
    rw [AbiType.names, target.mem_names_iff p]
    exact ⟨.pointer, fun | .pointer h => h⟩
  | array element count =>
    rw [AbiType.names, element.mem_names_iff p]
    exact ⟨.array, fun | .array h => h⟩
  | aliasOf name underlying =>
    rw [AbiType.names, List.mem_cons, underlying.mem_names_iff p]
    constructor
    · rintro (rfl | h)
      · exact .aliasName
      · exact .underlying h
    · intro h
      cases h with
      | aliasName => exact .inl rfl
      | underlying h => exact .inr h
  | intLike body => exact body.mem_names_iff p
  | userDefined name =>
    rw [AbiType.names, List.mem_singleton]
    constructor
    · rintro rfl
      exact .userDefined
    · rintro ⟨⟩
      rfl
  | record name members =>
    rw [AbiType.names, List.mem_cons, mem_membersNamedParts_iff members p]
    constructor
    · rintro (rfl | ⟨m, hm, h⟩)
      · exact .recordName
      · exact .member hm h
    · intro h
      cases h with
      | recordName => exact .inl rfl
      | member hm h => exact .inr ⟨_, hm, h⟩

theorem Member.mem_names_iff (m : Member) (p : NamedPart) : p ∈ m.names ↔ m.Holds p := by
  cases m with
  | simple name type =>
    rw [Member.names, List.mem_cons, type.mem_names_iff p]
    constructor
    · rintro (rfl | h)
      · exact .simpleName
      · exact .simpleType h
    · intro h
      cases h with
      | simpleName => exact .inl rfl
      | simpleType h => exact .inr h
  | variant alternatives =>
    rw [Member.names, mem_alternativesNamedParts_iff alternatives p]
    exact ⟨fun ⟨_, ha, h⟩ => .alternative ha h, fun | .alternative ha h => ⟨_, ha, h⟩⟩
  | range name target constant baseName lengthName =>
    rw [Member.names, List.mem_cons, List.mem_cons, List.mem_cons, target.mem_names_iff p]
    constructor
    · rintro (rfl | rfl | rfl | h)
      · exact .rangeName
      · exact .rangeBase
      · exact .rangeLength
      · exact .rangeTarget h
    · intro h
      cases h with
      | rangeName => exact .inl rfl
      | rangeBase => exact .inr (.inl rfl)
      | rangeLength => exact .inr (.inr (.inl rfl))
      | rangeTarget h => exact .inr (.inr (.inr h))

theorem Alternative.mem_names_iff (a : Alternative) (p : NamedPart) : p ∈ a.names ↔ a.Holds p := by
  match a with
  | .mk none members =>
    rw [Alternative.names, mem_membersNamedParts_iff members p]
    exact ⟨fun ⟨_, hm, h⟩ => .member hm h, fun | .member hm h => ⟨_, hm, h⟩⟩
  | .mk (some name) members =>
    rw [Alternative.names, List.mem_cons, mem_membersNamedParts_iff members p]
    constructor
    · rintro (rfl | ⟨m, hm, h⟩)
      · exact .name
      · exact .member hm h
    · intro h
      cases h with
      | name => exact .inl rfl
      | member hm h => exact .inr ⟨_, hm, h⟩

theorem mem_membersNamedParts_iff (members : List Member) (p : NamedPart) :
    p ∈ membersNamedParts members ↔ ∃ m ∈ members, m.Holds p := by
  cases members with
  | nil => simp [membersNamedParts]
  | cons m rest =>
    rw [membersNamedParts, List.mem_append, m.mem_names_iff p, mem_membersNamedParts_iff rest p]
    simp only [List.mem_cons, exists_eq_or_imp]

theorem mem_alternativesNamedParts_iff (alternatives : List Alternative) (p : NamedPart) :
    p ∈ alternativesNamedParts alternatives ↔ ∃ a ∈ alternatives, a.Holds p := by
  cases alternatives with
  | nil => simp [alternativesNamedParts]
  | cons a rest =>
    rw [alternativesNamedParts, List.mem_append, a.mem_names_iff p, mem_alternativesNamedParts_iff rest p]
    simp only [List.mem_cons, exists_eq_or_imp]

end

end AbiLayout
