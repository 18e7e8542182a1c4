import AbiLayout.Description.NamedPart
import AbiLayout.Proofs.Records.Flattening

/-!
# Inline types

A type that a record uses may be described where it is used, or be left to its name. Main statement: a record
in which inline types are left to their names is defined as before, with the same lines and the same result,
whatever they held.
-/

namespace AbiLayout

open Cpp

/-- In the second type one inline alias, enumeration or record of the first, at any depth, is left to its
name. -/
inductive AbiType.Abridges : AbiType → AbiType → Prop where
  | aliasOf (name : String) (underlying : AbiType) :
    AbiType.Abridges (.aliasOf name underlying) (.userDefined name)
  | intLike (body : IntLike) : AbiType.Abridges (.intLike body) (.userDefined body.name)
  | record (name : String) (members : List Member) :
    AbiType.Abridges (.record name members) (.userDefined name)
  | atomic {t t' : AbiType} (h : AbiType.Abridges t t') : AbiType.Abridges (.atomic t) (.atomic t')
  | pointer {t t' : AbiType} (h : AbiType.Abridges t t') (constant : Bool) :
    AbiType.Abridges (.pointer t constant) (.pointer t' constant)
  | array {t t' : AbiType} (h : AbiType.Abridges t t') (count : UInt64) :
    AbiType.Abridges (.array t count) (.array t' count)
  | underlying {t t' : AbiType} (h : AbiType.Abridges t t') (name : String) :
    AbiType.Abridges (.aliasOf name t) (.aliasOf name t')

/-- In the second list one inline type of the first is left to its name: in the type of a simple member, in the
target of a range, in an alternative at any depth, or among the members of a record that is itself inline. -/
inductive MembersAbridge : List Member → List Member → Prop where
  | simple (name : String) {t t' : AbiType} (h : t.Abridges t') (rest : List Member) :
    MembersAbridge (.simple name t :: rest) (.simple name t' :: rest)
  | range (name : String) {t t' : AbiType} (h : t.Abridges t') (constant : Bool)
    (baseName lengthName : String) (rest : List Member) :
    MembersAbridge (.range name t constant baseName lengthName :: rest)
      (.range name t' constant baseName lengthName :: rest)
  | later (m : Member) {ms ms' : List Member} (h : MembersAbridge ms ms') :
    MembersAbridge (m :: ms) (m :: ms')
  | inAlternative (before after : List Alternative) (name : Option String) {ms ms' : List Member}
    (h : MembersAbridge ms ms') (rest : List Member) :
    MembersAbridge (.variant (before ++ .mk name ms :: after) :: rest)
      (.variant (before ++ .mk name ms' :: after) :: rest)
  | inSimple (name : String) {around : List Member → AbiType} (haround : AroundMembers around)
    {ms ms' : List Member} (h : MembersAbridge ms ms') (rest : List Member) :
    MembersAbridge (.simple name (around ms) :: rest) (.simple name (around ms') :: rest)
  | inRange (name : String) (constant : Bool) (baseName lengthName : String)
    {around : List Member → AbiType} (haround : AroundMembers around) {ms ms' : List Member}
    (h : MembersAbridge ms ms') (rest : List Member) :
    MembersAbridge (.range name (around ms) constant baseName lengthName :: rest)
      (.range name (around ms') constant baseName lengthName :: rest)

/-! ### Names that are left -/

theorem AbiType.Abridges.names_subset {t t' : AbiType} (h : t.Abridges t') : t'.names ⊆ t.names := by
  induction h with
  | aliasOf name underlying =>
    rw [AbiType.names, AbiType.names]
    exact List.cons_subset_cons _ (List.nil_subset _)
  | intLike body =>
    rw [AbiType.names, AbiType.names, IntLike.names, List.cons_append]
    exact List.cons_subset_cons _ (List.nil_subset _)
  | record name members =>
    rw [AbiType.names, AbiType.names]
    exact List.cons_subset_cons _ (List.nil_subset _)
  | atomic _ ih | pointer _ _ ih | array _ _ ih => rwa [AbiType.names, AbiType.names]
  | underlying _ name ih =>
    rw [AbiType.names, AbiType.names]
    exact List.cons_subset_cons _ ih

theorem AroundMembers.names_subset {around : List Member → AbiType} (haround : AroundMembers around)
    {ms ms' : List Member} (h : membersNamedParts ms' ⊆ membersNamedParts ms) :
    (around ms').names ⊆ (around ms).names := by
  induction haround with
  | record name =>
    rw [AbiType.names, AbiType.names]
    exact List.cons_subset_cons _ h
  | atomic _ ih | pointer _ _ ih | array _ _ ih => rwa [AbiType.names, AbiType.names]
  | aliasOf _ name ih =>
    rw [AbiType.names, AbiType.names]
    exact List.cons_subset_cons _ ih

theorem alternativesNamedParts_append (a b : List Alternative) :
    alternativesNamedParts (a ++ b) = alternativesNamedParts a ++ alternativesNamedParts b := by
  induction a with
  | nil => rfl
  | cons x rest ih =>
    rw [List.cons_append, alternativesNamedParts, alternativesNamedParts, ih, List.append_assoc]

theorem Alternative.names_subset (name : Option String) {ms ms' : List Member}
    (h : membersNamedParts ms' ⊆ membersNamedParts ms) :
    (Alternative.mk name ms').names ⊆ (Alternative.mk name ms).names := by
  cases name with
  | none => rwa [Alternative.names, Alternative.names]
  | some name =>
    rw [Alternative.names, Alternative.names]
    exact List.cons_subset_cons _ h

theorem simple_names_subset (name : String) {t t' : AbiType} (h : t'.names ⊆ t.names) :
    (Member.simple name t').names ⊆ (Member.simple name t).names := by
  rw [Member.names, Member.names]
  exact List.cons_subset_cons _ h

theorem range_names_subset (name : String) (constant : Bool) (baseName lengthName : String)
    {t t' : AbiType} (h : t'.names ⊆ t.names) :
    (Member.range name t' constant baseName lengthName).names ⊆
      (Member.range name t constant baseName lengthName).names := by
  rw [Member.names, Member.names]
  exact List.cons_subset_cons _ (List.cons_subset_cons _ (List.cons_subset_cons _ h))

namespace MembersAbridge

variable {ms ms' : List Member}

/-- No name comes in, so good names stay good. -/
theorem names_subset (h : MembersAbridge ms ms') : membersNamedParts ms' ⊆ membersNamedParts ms := by
  have hfront : ∀ {m m' : Member}, m'.names ⊆ m.names → ∀ rest,
      membersNamedParts (m' :: rest) ⊆ membersNamedParts (m :: rest) := by
    intro m m' hm rest
    rw [membersNamedParts, membersNamedParts]
    exact List.append_subset.2
      ⟨List.subset_append_of_subset_left _ hm, List.subset_append_right ..⟩
  induction h with
  | simple name h rest => exact hfront (simple_names_subset name h.names_subset) rest
  | range name h constant baseName lengthName rest =>
    exact hfront (range_names_subset name constant baseName lengthName h.names_subset) rest
  | later m _ ih =>
    rw [membersNamedParts, membersNamedParts]
    exact List.append_subset.2
      ⟨List.subset_append_left .., List.subset_append_of_subset_right _ ih⟩
  | inAlternative before after name _ rest ih =>
    refine hfront ?_ rest
    have hchanged := Alternative.names_subset name ih
    rw [Member.names, Member.names, alternativesNamedParts_append, alternativesNamedParts_append,
      alternativesNamedParts, alternativesNamedParts]
    intro p hp
    rw [List.mem_append, List.mem_append] at hp ⊢
    exact hp.imp_right fun hp => hp.imp_left fun hp => hchanged hp
  | inSimple name haround _ rest ih =>
    exact hfront (simple_names_subset name (haround.names_subset ih)) rest
  | inRange name constant baseName lengthName haround _ rest ih =>
    exact hfront (range_names_subset name constant baseName lengthName (haround.names_subset ih)) rest

end MembersAbridge

namespace Cpp

/-! ### Spelling by name -/

/-- A type with a name is spelled by it, whatever stands behind the name. -/
theorem alike_of_abridges {t t' : AbiType} (h : t.Abridges t') (s : Spelling) : s.Alike t t' := by
  induction h with
  | aliasOf name underlying => exact ⟨rfl, fun _ => rfl⟩
  | intLike body => exact ⟨rfl, fun _ => rfl⟩
  | record name members => exact ⟨rfl, fun _ => rfl⟩
  | atomic _ ih => exact ih.atomic
  | pointer _ constant ih => exact ih.pointer constant
  | array _ count ih => exact ih.array count
  | underlying _ name _ => exact ⟨rfl, fun _ => rfl⟩

section

variable {t t' : AbiType} (h : ∀ s : Spelling, s.Alike t t') (s : RecordSettings) (scope : String)
  (visible : List String) (name : String)

include h

theorem outlineMember_simple_of_alike :
    outlineMember s scope visible (.simple name t) = outlineMember s scope visible (.simple name t') := by
  rw [outlineMember, outlineMember, Spelling.declaration, Spelling.declaration, (h _).2]

theorem outlineMember_range_of_alike (constant : Bool) (baseName lengthName : String) :
    outlineMember s scope visible (.range name t constant baseName lengthName) =
      outlineMember s scope visible (.range name t' constant baseName lengthName) := by
  rw [outlineMember, outlineMember, (h _).1]

end

end Cpp

/-! ### Records -/

namespace MembersAbridge

variable {ms ms' : List Member}

theorem declaredNames_eq (h : MembersAbridge ms ms') : declaredNames ms = declaredNames ms' := by
  induction h with
  | simple name _ rest => rfl
  | range name _ constant baseName lengthName rest => rfl
  | later m _ ih => rw [declaredNames, declaredNames, ih]
  | inAlternative before after name _ rest ih =>
    simp only [declaredNames, memberNames, alternativesNames_append, alternativesNames,
      alternativeNames_congr name ih]
  | inSimple name _ _ rest => rfl
  | inRange name constant baseName lengthName _ _ rest => rfl

theorem membersOffsets_eq (h : MembersAbridge ms ms') (path : DualPath) (lengthMember : Option String) :
    membersOffsets path lengthMember ms = membersOffsets path lengthMember ms' := by
  induction h generalizing path with
  | simple name _ rest => rfl
  | range name _ constant baseName lengthName rest => rfl
  | later m _ ih => rw [membersOffsets, membersOffsets, ih]
  | inAlternative before after name _ rest ih =>
    simp only [membersOffsets, memberOffsets, alternativesOffsets_append, alternativesOffsets,
      alternativeOffsets_congr path lengthMember name ih]
  | inSimple name _ _ rest => rfl
  | inRange name constant baseName lengthName _ _ rest => rfl

/-- The outlines are the same, faults included. -/
theorem outlineMembers_eq (h : MembersAbridge ms ms') (s : RecordSettings) (scope : String)
    (visible : List String) : outlineMembers s scope visible ms = outlineMembers s scope visible ms' := by
  induction h generalizing scope visible with
  | simple name h rest =>
    rw [outlineMembers, outlineMembers, outlineMember_simple_of_alike (alike_of_abridges h)]
  | range name h constant baseName lengthName rest =>
    rw [outlineMembers, outlineMembers, outlineMember_range_of_alike (alike_of_abridges h)]
  | later m _ ih => rw [outlineMembers, outlineMembers, ih]
  | inAlternative before after name h rest ih =>
    simp only [outlineMembers, outlineMember, outlineAlternatives_append, outlineAlternatives]
    cases name with
    | none => rw [outlineAlternative, outlineAlternative, ih]
    | some name =>
      -- inside the alternative the same names are visible, and its scope has the same fault
      rw [outlineAlternative, outlineAlternative, scopeFault, scopeFault, h.declaredNames_eq, ih]
  | @inSimple name around haround ms ms' _ rest =>
    have halike : ∀ s : Spelling, s.Alike (around ms) (around ms') := fun s => spelled_around haround s ms ms'
    rw [outlineMembers, outlineMembers, outlineMember_simple_of_alike halike]
  | @inRange name constant baseName lengthName around haround ms ms' _ rest =>
    have halike : ∀ s : Spelling, s.Alike (around ms) (around ms') := fun s => spelled_around haround s ms ms'
    rw [outlineMembers, outlineMembers, outlineMember_range_of_alike halike]

end MembersAbridge

/-- A record is defined alike, with the same lines and the same fault or count, if one of its inline types is
left to its name. -/
theorem Cpp.defineRecord_of_abridges (s : RecordSettings) (lead name : String) {ms ms' : List Member}
    (h : MembersAbridge ms ms') : defineRecord s lead ⟨name, ms⟩ = defineRecord s lead ⟨name, ms'⟩ := by
  have hfault : scopeFault (mangle name) ms = scopeFault (mangle name) ms' := by
    rw [scopeFault, scopeFault, h.declaredNames_eq]
  have houtline : outlineRecord s ⟨name, ms⟩ = outlineRecord s ⟨name, ms'⟩ := by
    rw [outlineRecord, outlineRecord, h.declaredNames_eq, h.outlineMembers_eq]
  have hoffsets : sharedOffsets ms s.rangeLengthMember = sharedOffsets ms' s.rangeLengthMember :=
    h.membersOffsets_eq .root s.rangeLengthMember
  simp only [defineRecord, assertLayout, hfault, houtline, hoffsets]

end AbiLayout
