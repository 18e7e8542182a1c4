import AbiLayout.Proofs.Descriptions.Nesting
import AbiLayout.Proofs.Descriptions.Yielding
import AbiLayout.Proofs.Documents.Data
import AbiLayout.Proofs.Documents.YamlScript

/-!
# One description in both formats

The same data can be presented in JSON and in YAML. What it spells is the same in both as long as every
struct is an object, since only JSON knows structs as sequences. Main statement: data that is read as a
description from JSON is read as the same description from YAML.
-/

namespace AbiLayout

open Document

/-- What a place of a description is for. -/
inductive Part where
  | description
  | interface
  | types
  | type
  | pointer
  | array
  | aliasOf
  | intLike
  | values
  | value
  | record
  | members
  | member
  | simple
  | variant
  | alternatives
  | alternative
  | range
  | single
deriving DecidableEq, Repr

def Part.layout : Part → Layout Part
  | .description => .struct descriptionShape fun
    | .interface => .interface
    | .types => .types
  | .interface => .struct interfaceShape fun _ => .single
  | .types => .list .type
  | .type => .choice typeChoice fun
    | .atomic => .type
    | .pointer => .pointer
    | .array => .array
    | .aliasOf => .aliasOf
    | .intLike => .intLike
    | .record => .record
    | .void | .int | .userDefined => .single
  | .pointer => .struct pointerShape fun
    | .target => .type
    | .constant => .single
  | .array => .struct arrayShape fun
    | .element => .type
    | .count => .single
  | .aliasOf => .struct aliasShape fun
    | .name => .single
    | .underlying => .type
  | .intLike => .struct intLikeShape fun
    | .values => .values
    | .name | .intType | .flags | .infixName => .single
  | .values => .list .value
  | .value => .struct namedValueShape fun _ => .single
  | .record => .struct recordShape fun
    | .name => .single
    | .members => .members
  | .members => .list .member
  | .member => .choice memberChoice fun
    | .simple => .simple
    | .variant => .variant
    | .range => .range
  | .simple => .struct simpleShape fun
    | .name => .single
    | .type => .type
  | .variant => .struct variantShape fun _ => .alternatives
  | .alternatives => .list .alternative
  | .alternative => .struct alternativeShape fun
    | .name => .single
    | .members => .members
  | .range => .struct rangeShape fun
    | .target => .type
    | .name | .constant | .baseName | .lengthName => .single
  | .single => .single

section

variable {S S' : Type} {c : Script S} {c' : Script S'} (hc : Function.Injective c.scalar)

include hc

theorem NamedValue.carries (v : NamedValue) :
    Carries Part.layout c c' .value (v.Spelled c) (v.Spelled c') := by
  refine carries_spells hc rfl (fun f => ?_) (fun f h => ?_)
  · cases f with
    | name => exact carries_atom hc _ (.text v.name)
    | value => exact carries_atom hc _ (.word v.value)
  · exact h

theorem IntLike.carries (e : IntLike) :
    Carries Part.layout c c' .intLike (e.Spelled c) (e.Spelled c') := by
  refine carries_spells hc rfl (fun f => ?_) (fun f h => ?_)
  · cases f with
    | name => exact carries_atom hc _ (.text e.name)
    | intType => exact carries_atom hc _ (.text e.intType.name)
    | flags => exact carries_atom hc _ (.flag e.flags)
    | infixName => exact carries_option hc _ e.infixName
    | values =>
      exact carries_lists (rfl : Part.layout .values = .list .value) fun data =>
        forall₂_writeAll fun v _ => NamedValue.carries hc v
  · cases f <;> exact h

theorem carries_nameOrDefault (p : Part) (default name : String) :
    Carries Part.layout c c' p (NameOrDefault c default name) (NameOrDefault c' default name) := by
  rintro v hobjects ⟨o, hv, ho⟩
  exact ⟨o, carries_option hc p o v hobjects hv, ho⟩

theorem carries_pointer {target : AbiType}
    (h : Carries Part.layout c c' .type (target.Spelled c) (target.Spelled c')) (constant : Bool) :
    Carries Part.layout c c' .pointer ((pointerFilling c (target.Spelled c) constant).Spells c)
      ((pointerFilling c' (target.Spelled c') constant).Spells c') := by
  refine carries_spells hc rfl (fun f => ?_) (fun f hf => ?_)
  · cases f with
    | target => exact h
    | constant => exact carries_atom hc _ (.flag constant)
  · cases f <;> exact hf

theorem carries_array {element : AbiType}
    (h : Carries Part.layout c c' .type (element.Spelled c) (element.Spelled c')) (count : UInt64) :
    Carries Part.layout c c' .array ((arrayFilling c (element.Spelled c) count).Spells c)
      ((arrayFilling c' (element.Spelled c') count).Spells c') := by
  refine carries_spells hc rfl (fun f => ?_) (fun f hf => ?_)
  · cases f with
    | element => exact h
    | count => exact carries_atom hc _ (.word count)
  · exact hf

theorem carries_alias {underlying : AbiType} (name : String)
    (h : Carries Part.layout c c' .type (underlying.Spelled c) (underlying.Spelled c')) :
    Carries Part.layout c c' .aliasOf ((aliasFilling c name (underlying.Spelled c)).Spells c)
      ((aliasFilling c' name (underlying.Spelled c')).Spells c') := by
  refine carries_spells hc rfl (fun f => ?_) (fun f hf => ?_)
  · cases f with
    | name => exact carries_atom hc _ (.text name)
    | underlying => exact h
  · exact hf

/-- A list of members, where each of them is carried over. -/
def MembersCarried (c : Script S) (c' : Script S') (members : List Member) : Prop :=
  ∀ data, Datum.structsAreObjectsAll Part.layout .member data = true →
    MembersSpelled c members (Datum.writeAll c data) →
    MembersSpelled c' members (Datum.writeAll c' data)

def AlternativesCarried (c : Script S) (c' : Script S') (alternatives : List Alternative) : Prop :=
  ∀ data, Datum.structsAreObjectsAll Part.layout .alternative data = true →
    AlternativesSpelled c alternatives (Datum.writeAll c data) →
    AlternativesSpelled c' alternatives (Datum.writeAll c' data)

theorem carries_record (name : String) {members : List Member} (h : MembersCarried c c' members) :
    Carries Part.layout c c' .record
      ((recordFilling c name members (Node.Lists (MembersSpelled c members))).Spells c)
      ((recordFilling c' name members (Node.Lists (MembersSpelled c' members))).Spells c') := by
  refine carries_spells hc rfl (fun f => ?_) (fun f hf => ?_)
  · cases f with
    | name => exact carries_atom hc _ (.text name)
    | members => exact carries_lists (rfl : Part.layout .members = .list .member) h
  · cases f <;> exact hf

theorem carries_simple (name : String) {type : AbiType}
    (h : Carries Part.layout c c' .type (type.Spelled c) (type.Spelled c')) :
    Carries Part.layout c c' .simple ((simpleFilling c name (type.Spelled c)).Spells c)
      ((simpleFilling c' name (type.Spelled c')).Spells c') := by
  refine carries_spells hc rfl (fun f => ?_) (fun f hf => ?_)
  · cases f with
    | name => exact carries_atom hc _ (.text name)
    | type => exact h
  · exact hf

theorem carries_variant {alternatives : List Alternative} (h : AlternativesCarried c c' alternatives) :
    Carries Part.layout c c' .variant
      ((variantFilling (Node.Lists (AlternativesSpelled c alternatives))).Spells c)
      ((variantFilling (Node.Lists (AlternativesSpelled c' alternatives))).Spells c') := by
  refine carries_spells hc rfl (fun f => ?_) (fun f hf => hf)
  exact carries_lists (rfl : Part.layout .alternatives = .list .alternative) h

theorem carries_alternative (name : Option String) {members : List Member}
    (h : MembersCarried c c' members) :
    Carries Part.layout c c' .alternative
      ((alternativeFilling c name members (Node.Lists (MembersSpelled c members))).Spells c)
      ((alternativeFilling c' name members (Node.Lists (MembersSpelled c' members))).Spells c') := by
  refine carries_spells hc rfl (fun f => ?_) (fun f hf => ?_)
  · cases f with
    | name => exact carries_option hc _ name
    | members => exact carries_lists (rfl : Part.layout .members = .list .member) h
  · cases f <;> exact hf

theorem carries_range (name : String) {target : AbiType}
    (h : Carries Part.layout c c' .type (target.Spelled c) (target.Spelled c')) (constant : Bool)
    (baseName lengthName : String) :
    Carries Part.layout c c' .range
      ((rangeFilling c name (target.Spelled c) constant baseName lengthName).Spells c)
      ((rangeFilling c' name (target.Spelled c') constant baseName lengthName).Spells c') := by
  refine carries_spells hc rfl (fun f => ?_) (fun f hf => ?_)
  · cases f with
    | name => exact carries_atom hc _ (.text name)
    | target => exact h
    | constant => exact carries_atom hc _ (.flag constant)
    | baseName => exact carries_nameOrDefault hc _ name baseName
    | lengthName => exact carries_nameOrDefault hc _ (Member.defaultLengthName name) lengthName
  · cases f <;> exact hf

/-! ### Types and members -/

/-- The form of a type with a text alone. -/
theorem carries_textForm (form : TypeForm) (s : String) {v : Datum}
    (hobjects : v.structsAreObjects Part.layout .type = true)
    (h : v.write c = c.choiceNode form.key (c.textNode s)) :
    v.write c' = c'.choiceNode form.key (c'.textNode s) := by
  have hp : Part.layout .type = .choice typeChoice _ := rfl
  obtain ⟨u, hu, -, hv⟩ := exists_of_choiceNode c' hc hp form hobjects h
  obtain rfl := Datum.eq_atom_of_write (a := .text s) hc hu.symm
  exact hv

end

variable {S S' : Type} {c : Script S} {c' : Script S'}

mutual

theorem AbiType.carries (hc : Function.Injective c.scalar) (t : AbiType) :
    Carries Part.layout c c' .type (t.Spelled c) (t.Spelled c') := by
  intro v hobjects h
  have hp : Part.layout .type = .choice typeChoice _ := rfl
  cases t with
  | void => exact carries_atom hc _ (.text "void") v hobjects h
  | int kind => exact carries_textForm hc .int kind.name hobjects h
  | atomic target => exact carries_choice hc hp .atomic (target.carries hc) hobjects h
  | pointer target constant =>
    have hcontent := carries_pointer hc (target.carries hc) constant
    exact carries_choice hc hp .pointer hcontent hobjects h
  | array element count =>
    have hcontent := carries_array hc (element.carries hc) count
    exact carries_choice hc hp .array hcontent hobjects h
  | aliasOf name underlying =>
    have hcontent := carries_alias hc name (underlying.carries hc)
    exact carries_choice hc hp .aliasOf hcontent hobjects h
  | intLike body =>
    have hcontent : Carries Part.layout c c' .intLike (body.Spelled c) (body.Spelled c') :=
      IntLike.carries hc body
    exact carries_choice hc hp .intLike hcontent hobjects h
  | userDefined name => exact carries_textForm hc .userDefined name hobjects h
  | record name members =>
    have hcontent := carries_record hc name (membersCarried hc members)
    exact carries_choice hc hp .record hcontent hobjects h

theorem Member.carries (hc : Function.Injective c.scalar) (m : Member) :
    Carries Part.layout c c' .member (m.Spelled c) (m.Spelled c') := by
  intro v hobjects h
  have hp : Part.layout .member = .choice memberChoice _ := rfl
  cases m with
  | simple name type =>
    have hcontent := carries_simple hc name (type.carries hc)
    exact carries_choice hc hp .simple hcontent hobjects h
  | variant alternatives =>
    have hcontent := carries_variant hc (alternativesCarried hc alternatives)
    exact carries_choice hc hp .variant hcontent hobjects h
  | range name target constant baseName lengthName =>
    have hcontent := carries_range hc name (target.carries hc) constant baseName lengthName
    exact carries_choice hc hp .range hcontent hobjects h

theorem Alternative.carries (hc : Function.Injective c.scalar) (a : Alternative) :
    Carries Part.layout c c' .alternative (a.Spelled c) (a.Spelled c') := by
  cases a with
  | mk name members =>
    have hcontent := carries_alternative hc name (membersCarried hc members)
    exact hcontent

theorem membersCarried (hc : Function.Injective c.scalar) (members : List Member) :
    MembersCarried c c' members := by
  intro data hobjects h
  cases members with
  | nil =>
    cases data with
    | nil => rfl
    | cons v others => cases h
  | cons m rest =>
    obtain ⟨n, written, hdata, hm, hrest⟩ := h
    cases data with
    | nil => cases hdata
    | cons v others =>
      cases hdata
      rw [Datum.structsAreObjectsAll, Bool.and_eq_true] at hobjects
      exact ⟨_, _, rfl, m.carries hc v hobjects.1 hm,
        membersCarried hc rest others hobjects.2 hrest⟩

theorem alternativesCarried (hc : Function.Injective c.scalar) (alternatives : List Alternative) :
    AlternativesCarried c c' alternatives := by
  intro data hobjects h
  cases alternatives with
  | nil =>
    cases data with
    | nil => rfl
    | cons v others => cases h
  | cons a rest =>
    obtain ⟨n, written, hdata, ha, hrest⟩ := h
    cases data with
    | nil => cases hdata
    | cons v others =>
      cases hdata
      rw [Datum.structsAreObjectsAll, Bool.and_eq_true] at hobjects
      exact ⟨_, _, rfl, a.carries hc v hobjects.1 ha,
        alternativesCarried hc rest others hobjects.2 hrest⟩

end

/-! ### Descriptions -/

theorem Interface.carries (hc : Function.Injective c.scalar) (i : Interface) :
    Carries Part.layout c c' .interface (i.Spelled c) (i.Spelled c') := by
  refine carries_spells hc rfl (fun f => ?_) (fun f hf => ?_)
  · cases f with
    | name => exact carries_atom hc _ (.text i.name)
    | description => exact carries_option hc _ i.description
  · cases f <;> exact hf

theorem Description.carries (hc : Function.Injective c.scalar) (f : Description) :
    Carries Part.layout c c' .description (f.Spelled c) (f.Spelled c') := by
  refine carries_spells hc rfl (fun field => ?_) (fun field hfield => ?_)
  · cases field with
    | interface => exact f.interface.carries hc
    | types =>
      exact carries_lists (rfl : Part.layout .types = .list .type) fun data =>
        forall₂_writeAll fun t _ => AbiType.carries hc t
  · cases field <;> exact hfield

/-! ### Both formats -/

theorem Json.scalar_injective : Function.Injective Json.script.scalar := by
  intro a b h
  cases a <;> cases b
  case word.word w w' =>
    have hvalue : (w.toNat : Int) = w'.toNat := by injection h
    rw [UInt64.toNat_inj.1 (Int.ofNat_inj.1 hvalue)]
  all_goals simp_all [Script.scalar, Json.script]

/-- A tree that is read as a description from JSON is read as the same description from YAML. -/
theorem ofDocument_yaml_of_json {v : Datum} {f : Description} {json : Parsed Json.Scalar}
    {yaml : Parsed Yaml.Scalar} (hjson : json.root = v.write Json.script)
    (hyaml : yaml.root = v.write Yaml.script) (hwhole : yaml.isWhole = true) (hdepth : v.depth ≤ 100)
    (hobjects : v.structsAreObjects Part.layout .description = true)
    (h : Description.ofDocument Json.format json = .ok f) :
    Description.ofDocument Yaml.format yaml = .ok f := by
  have hread := (yields_of_read h).1
  rw [hjson] at hread
  have hspelled : f.Spelled Json.script (v.write Json.script) :=
    spelled_of_readDescription Json.script_covers_format (v.isDirect_write Json.script) hread
  have hcarried : f.Spelled Yaml.script (v.write Yaml.script) :=
    Description.carries Json.scalar_injective f v hobjects hspelled
  have hdump : f.dump.depth ≤ Yaml.format.limit := by
    have hle := Description.depth_dump_le hspelled
    rw [v.depth_write] at hle
    have hlimit : Yaml.format.limit = 128 := rfl
    omega
  rw [← hyaml] at hcarried
  exact read_of_eq_pure hwhole (readDescription_of_spelled Yaml.script_readBy_format hcarried hdump)

/-- Values, a range whose parts are named by default, and a key that means nothing. -/
def bufferData : Datum :=
  .mapping
    [("abi", .mapping [("name", .atom (.text "1_buffers")), ("description", .atom .nothing)]),
      ("types", .sequence
        [.mapping [("int-like", .mapping
            [("values", .sequence
                [.mapping [("name", .atom (.text "true")), ("value", .atom (.word 18446744073709551615))]]),
              ("name", .atom (.text "0x1")), ("int-type", .atom (.text "uint64")),
              ("flags", .atom (.flag true))])],
          .mapping [("struct", .mapping
            [("note", .sequence [.atom .nothing]), ("name", .atom (.text "iovec")),
              ("members", .sequence [.mapping [("range", .mapping
                [("name", .atom (.text "buf")), ("base-name", .atom .nothing),
                  ("target", .atom (.text "void"))])]])])]])]

def bufferDescription : Description where
  interface := ⟨"1_buffers", none⟩
  types :=
    [.intLike ⟨"0x1", .uint64, true, none, [⟨"true", 18446744073709551615⟩]⟩,
      .record "iovec" [.range "buf" .void false "buf" "buf_len"]]

theorem ofDocument_yaml_of_json_buffers :
    Description.ofDocument Json.format ⟨bufferData.write Json.script, true, #[], 0⟩ =
      .ok bufferDescription ∧
    Description.ofDocument Yaml.format ⟨bufferData.write Yaml.script, true, #[], 0⟩ =
      .ok bufferDescription := by
  have hjson : Description.ofDocument Json.format ⟨bufferData.write Json.script, true, #[], 0⟩ =
      .ok bufferDescription := by rfl
  exact ⟨hjson, ofDocument_yaml_of_json rfl rfl rfl (by decide) (by decide) hjson⟩

end AbiLayout
