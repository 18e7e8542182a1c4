import AbiLayout.Description.Shapes
import AbiLayout.Proofs.Documents.Spelling

/-!
# Spellings of descriptions

What may be written for a description: every struct as an object, with its entries in any order and
with keys that mean nothing between them, or as a sequence of its fields; every choice by its key; and
fields that hold their default left out. A range has two fields whose default depends on its name.
-/

namespace AbiLayout

open Document

variable {S : Type} (c : Script S)

/-! ### Keys -/

instance : integralChoice.Lawful := ⟨Integral.mem_all, by decide⟩

instance : typeChoice.Lawful := ⟨by intro t; cases t <;> decide, by decide⟩

instance : memberChoice.Lawful := ⟨by intro t; cases t <;> decide, by decide⟩

instance : pointerShape.Lawful := ⟨by intro f; cases f <;> decide, by decide⟩

instance : arrayShape.Lawful := ⟨by intro f; cases f <;> decide, by decide⟩

instance : aliasShape.Lawful := ⟨by intro f; cases f <;> decide, by decide⟩

instance : namedValueShape.Lawful := ⟨by intro f; cases f <;> decide, by decide⟩

instance : intLikeShape.Lawful := ⟨by intro f; cases f <;> decide, by decide⟩

instance : recordShape.Lawful := ⟨by intro f; cases f <;> decide, by decide⟩

instance : simpleShape.Lawful := ⟨by intro f; cases f <;> decide, by decide⟩

instance : variantShape.Lawful := ⟨by intro f; cases f; decide, by decide⟩

instance : alternativeShape.Lawful := ⟨by intro f; cases f <;> decide, by decide⟩

instance : rangeShape.Lawful := ⟨by intro f; cases f <;> decide, by decide⟩

instance : interfaceShape.Lawful := ⟨by intro f; cases f <;> decide, by decide⟩

instance : descriptionShape.Lawful := ⟨by intro f; cases f <;> decide, by decide⟩

/-! ### Structs -/

def pointerFilling (target : Node S → Prop) (constant : Bool) : Filling pointerShape S where
  accepts
    | .target => target
    | .constant => (· = c.flagNode constant)
  mayOmit
    | .target => False
    | .constant => constant = false

def arrayFilling (element : Node S → Prop) (count : UInt64) : Filling arrayShape S where
  accepts
    | .element => element
    | .count => (· = c.wordNode count)
  mayOmit _ := False

def aliasFilling (name : String) (underlying : Node S → Prop) : Filling aliasShape S where
  accepts
    | .name => (· = c.textNode name)
    | .underlying => underlying
  mayOmit _ := False

def namedValueFilling (v : NamedValue) : Filling namedValueShape S where
  accepts
    | .name => (· = c.textNode v.name)
    | .value => (· = c.wordNode v.value)
  mayOmit _ := False

def NamedValue.Spelled (v : NamedValue) : Node S → Prop := (namedValueFilling c v).Spells c

def intLikeFilling (e : IntLike) : Filling intLikeShape S where
  accepts
    | .name => (· = c.textNode e.name)
    | .intType => (· = c.textNode e.intType.name)
    | .flags => (· = c.flagNode e.flags)
    | .infixName => (· = c.optionNode e.infixName)
    | .values => Node.Lists (List.Forall₂ (NamedValue.Spelled c) e.values)
  mayOmit
    | .name | .intType => False
    | .flags => e.flags = false
    | .infixName => e.infixName = none
    | .values => e.values = []

def IntLike.Spelled (e : IntLike) : Node S → Prop := (intLikeFilling c e).Spells c

def recordFilling (name : String) (members : List Member) (listed : Node S → Prop) :
    Filling recordShape S where
  accepts
    | .name => (· = c.textNode name)
    | .members => listed
  mayOmit
    | .name => False
    | .members => members = []

def simpleFilling (name : String) (type : Node S → Prop) : Filling simpleShape S where
  accepts
    | .name => (· = c.textNode name)
    | .type => type
  mayOmit _ := False

def variantFilling (listed : Node S → Prop) : Filling variantShape S where
  accepts _ := listed
  mayOmit _ := False

def alternativeFilling (name : Option String) (members : List Member) (listed : Node S → Prop) :
    Filling alternativeShape S where
  accepts
    | .name => (· = c.optionNode name)
    | .members => listed
  mayOmit
    | .name => name = none
    | .members => members = []

/-- A name, or nothing where the name is the one that is understood. -/
def NameOrDefault (default name : String) (n : Node S) : Prop :=
  ∃ o : Option String, n = c.optionNode o ∧ o.getD default = name

def rangeFilling (name : String) (target : Node S → Prop) (constant : Bool)
    (baseName lengthName : String) : Filling rangeShape S where
  accepts
    | .name => (· = c.textNode name)
    | .target => target
    | .constant => (· = c.flagNode constant)
    | .baseName => NameOrDefault c name baseName
    | .lengthName => NameOrDefault c (Member.defaultLengthName name) lengthName
  mayOmit
    | .name | .target => False
    | .constant => constant = false
    | .baseName => baseName = name
    | .lengthName => lengthName = Member.defaultLengthName name

def interfaceFilling (i : Interface) : Filling interfaceShape S where
  accepts
    | .name => (· = c.textNode i.name)
    | .description => (· = c.optionNode i.description)
  mayOmit
    | .name => False
    | .description => i.description = none

def Interface.Spelled (i : Interface) : Node S → Prop := (interfaceFilling c i).Spells c

/-! ### Types and members -/

mutual

def AbiType.Spelled : AbiType → Node S → Prop
  | .void, n => n = c.textNode "void"
  | .int kind, n => n = c.choiceNode "int" (c.textNode kind.name)
  | .atomic target, n => ∃ content, n = c.choiceNode "atomic" content ∧ target.Spelled content
  | .pointer target constant, n => ∃ content, n = c.choiceNode "pointer" content ∧
      (pointerFilling c target.Spelled constant).Spells c content
  | .array element count, n => ∃ content, n = c.choiceNode "array" content ∧
      (arrayFilling c element.Spelled count).Spells c content
  | .aliasOf name underlying, n => ∃ content, n = c.choiceNode "alias" content ∧
      (aliasFilling c name underlying.Spelled).Spells c content
  | .intLike body, n => ∃ content, n = c.choiceNode "int-like" content ∧ body.Spelled c content
  | .userDefined name, n => n = c.choiceNode "user-defined" (c.textNode name)
  | .record name members, n => ∃ content, n = c.choiceNode "struct" content ∧
      (recordFilling c name members (Node.Lists (MembersSpelled members))).Spells c content

def Member.Spelled : Member → Node S → Prop
  | .simple name type, n => ∃ content, n = c.choiceNode "simple" content ∧
      (simpleFilling c name type.Spelled).Spells c content
  | .variant alternatives, n => ∃ content, n = c.choiceNode "variant" content ∧
      (variantFilling (Node.Lists (AlternativesSpelled alternatives))).Spells c content
  | .range name target constant baseName lengthName, n =>
    ∃ content, n = c.choiceNode "range" content ∧
      (rangeFilling c name target.Spelled constant baseName lengthName).Spells c content

def Alternative.Spelled : Alternative → Node S → Prop
  | .mk name members =>
    (alternativeFilling c name members (Node.Lists (MembersSpelled members))).Spells c

/-- One tree for each member, in their order. -/
def MembersSpelled : List Member → List (Node S) → Prop
  | [], items => items = []
  | m :: rest, items => ∃ n others, items = n :: others ∧ m.Spelled n ∧ MembersSpelled rest others

def AlternativesSpelled : List Alternative → List (Node S) → Prop
  | [], items => items = []
  | a :: rest, items =>
    ∃ n others, items = n :: others ∧ a.Spelled n ∧ AlternativesSpelled rest others

end

theorem membersSpelled_iff {members : List Member} {items : List (Node S)} :
    MembersSpelled c members items ↔ List.Forall₂ (Member.Spelled c) members items := by
  induction members generalizing items with
  | nil => rw [MembersSpelled, List.forall₂_nil_left_iff]
  | cons m rest ih =>
    rw [MembersSpelled, List.forall₂_cons_left_iff]
    simp only [ih]
    aesop

theorem alternativesSpelled_iff {alternatives : List Alternative} {items : List (Node S)} :
    AlternativesSpelled c alternatives items ↔
      List.Forall₂ (Alternative.Spelled c) alternatives items := by
  induction alternatives generalizing items with
  | nil => rw [AlternativesSpelled, List.forall₂_nil_left_iff]
  | cons a rest ih =>
    rw [AlternativesSpelled, List.forall₂_cons_left_iff]
    simp only [ih]
    aesop

def descriptionFilling (f : Description) : Filling descriptionShape S where
  accepts
    | .interface => f.interface.Spelled c
    | .types => Node.Lists (List.Forall₂ (AbiType.Spelled c) f.types)
  mayOmit
    | .interface => False
    | .types => f.types = []

def Description.Spelled (f : Description) : Node S → Prop := (descriptionFilling c f).Spells c

end AbiLayout
