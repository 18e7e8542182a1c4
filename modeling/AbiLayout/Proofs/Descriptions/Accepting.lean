import AbiLayout.Description.Dump
import AbiLayout.Description.Reading
import AbiLayout.Proofs.Descriptions.Spelling
import AbiLayout.Proofs.Documents.Accepting

/-!
# Reading spelled descriptions

Whatever spells a description is read as that description, however it is spelled. The containers that
are entered are those of the full written form, so its depth says how far the limit has to go; what
stands under keys that mean nothing is not entered.
-/

namespace AbiLayout

open Document

/-! ### Depth of the full written form -/

namespace Json.Tree

@[simp]
theorem depth_text (s : String) : (text s).depth = 0 := rfl

@[simp]
theorem depth_bool (b : Bool) : (bool b).depth = 0 := rfl

@[simp]
theorem depth_nat (n : Nat) : (nat n).depth = 0 := rfl

@[simp]
theorem depth_optional (o : Option String) : (optional o).depth = 0 := by
  cases o <;> rfl

@[simp]
theorem depth_array (items : List Tree) : (array items).depth = Node.depthAll items + 1 := rfl

@[simp]
theorem depth_object (entries : List (String × Tree)) :
    (object entries).depth = (entries.map fun e => e.2.depth).foldr max 0 + 1 := by
  rw [object, Node.depth]
  congr 1
  induction entries with
  | nil => rfl
  | cons e rest ih =>
    have hkey : (text e.1).depth = 0 := rfl
    simp only [List.map_cons, Node.depthEntries, ih, hkey, List.foldr_cons, Nat.zero_max]

end Json.Tree

@[simp]
theorem depth_tagged (key : String) (content : Json.Tree) :
    (tagged key content).depth = content.depth + 1 := by
  simp [tagged]

theorem IntLike.depth_dump (e : IntLike) :
    e.dump.depth = Node.depthAll (e.values.map NamedValue.dump) + 2 := by
  simp [IntLike.dump]

theorem AbiType.depth_dump_pointer (target : AbiType) (constant : Bool) :
    (pointer target constant).dump.depth = target.dump.depth + 2 := by
  simp [dump]

theorem AbiType.depth_dump_array (element : AbiType) (count : UInt64) :
    (array element count).dump.depth = element.dump.depth + 2 := by
  simp [dump]

theorem AbiType.depth_dump_aliasOf (name : String) (underlying : AbiType) :
    (aliasOf name underlying).dump.depth = underlying.dump.depth + 2 := by
  simp [dump]

/-- Three containers are around each member: the choice, the struct and the sequence. -/
theorem AbiType.depth_dump_record (name : String) (members : List Member) :
    (record name members).dump.depth = Node.depthAll (membersDump members) + 3 := by
  simp [dump]

theorem Member.depth_dump_simple (name : String) (type : AbiType) :
    (simple name type).dump.depth = type.dump.depth + 2 := by
  simp [dump]

theorem Member.depth_dump_variant (alternatives : List Alternative) :
    (variant alternatives).dump.depth = Node.depthAll (alternativesDump alternatives) + 3 := by
  simp [dump]

theorem Member.depth_dump_range (name : String) (target : AbiType) (constant : Bool)
    (baseName lengthName : String) :
    (range name target constant baseName lengthName).dump.depth = target.dump.depth + 2 := by
  simp [dump, rangeDump]

theorem Alternative.depth_dump (name : Option String) (members : List Member) :
    (mk name members).dump.depth = Node.depthAll (membersDump members) + 2 := by
  simp [dump]

theorem Description.depth_dump (f : Description) :
    f.dump.depth = Node.depthAll (f.types.map AbiType.dump) + 2 := by
  simp [Description.dump, Interface.dump]

theorem exists_add_of_le {m k n : Nat} (h : m + k ≤ n) : ∃ d, n = d + k ∧ m ≤ d :=
  ⟨n - k, by omega, by omega⟩

section

variable {S : Type} {c : Script S} {fmt : Format S}

/-! ### Structs -/

theorem readIntegral_textNode (hc : c.ReadBy fmt) (depth : Nat) (kind : Integral) :
    readIntegral fmt depth (c.textNode kind.name) = pure kind :=
  readChoice_textNode hc integralChoice kind rfl _

theorem readNamedValue_of_spelled (hc : c.ReadBy fmt) {v : NamedValue} {n : Node S} {depth : Nat}
    (h : v.Spelled c n) (hdepth : v.dump.depth ≤ depth) : readNamedValue fmt depth n = pure v := by
  obtain ⟨d, rfl, -⟩ : ∃ d, depth = d + 1 ∧ 0 ≤ d := exists_add_of_le hdepth
  rw [readNamedValue]
  refine bind_readStruct hc h
    (fun
      | .name, x => x = v.name
      | .value, x => x = v.value) ?_ ?_
  · intro f n hn
    cases f with
    | name =>
      cases hn
      exact ⟨v.name, readText_textNode hc v.name, rfl⟩
    | value =>
      cases hn
      exact ⟨v.value, readWord_wordNode hc v.value, rfl⟩
  · intro draft hdraft
    simp only [required_of_meets (hdraft .name), required_of_meets (hdraft .value), pure_bind]

theorem readNamedValues_of_spelled (hc : c.ReadBy fmt) {values : List NamedValue} {n : Node S}
    {depth : Nat} (h : n.Lists (List.Forall₂ (NamedValue.Spelled c) values))
    (hdepth : ∀ v ∈ values, v.dump.depth ≤ depth) :
    readNamedValues fmt (depth + 1) n = pure values := by
  obtain ⟨items, rfl, hitems⟩ := h
  refine readSequence_of_forall₂ (((List.forall₂_and_left _ _).2 ⟨hdepth, hitems⟩).imp ?_)
  intro v n hv
  exact readNamedValue_of_spelled hc hv.2 hv.1

theorem readIntLike_of_spelled (hc : c.ReadBy fmt) {e : IntLike} {n : Node S} {depth : Nat}
    (h : e.Spelled c n) (hdepth : e.dump.depth ≤ depth) : readIntLike fmt depth n = pure e := by
  rw [IntLike.depth_dump] at hdepth
  obtain ⟨d, rfl, hd⟩ := exists_add_of_le hdepth
  rw [Node.depthAll_le_iff, List.forall_mem_map] at hd
  rw [readIntLike]
  refine bind_readStruct hc h
    (fun
      | .name, x => x = e.name
      | .intType, x => x = e.intType
      | .flags, x => x = e.flags
      | .infixName, x => x = e.infixName
      | .values, x => x = e.values) ?_ ?_
  · intro f n hn
    cases f with
    | name =>
      cases hn
      exact ⟨e.name, readText_textNode hc e.name, rfl⟩
    | intType =>
      cases hn
      exact ⟨e.intType, readIntegral_textNode hc _ e.intType, rfl⟩
    | flags =>
      cases hn
      exact ⟨e.flags, readFlag_flagNode hc e.flags, rfl⟩
    | infixName =>
      cases hn
      exact ⟨e.infixName, readOptional_optionNode hc e.infixName, rfl⟩
    | values => exact ⟨e.values, readNamedValues_of_spelled hc hn hd, rfl⟩
  · intro draft hdraft
    simp only [required_of_meets (hdraft .name), required_of_meets (hdraft .intType), pure_bind,
      getD_of_meets (hdraft .flags), getD_of_meets (hdraft .infixName),
      getD_of_meets (hdraft .values)]

theorem readPointer_of_spells (hc : c.ReadBy fmt) {p : Node S → Prop} {target : AbiType}
    {constant : Bool} {n : Node S} {depth : Nat} (h : (pointerFilling c p constant).Spells c n)
    (hread : ∀ n, p n → readType fmt depth n = pure target) :
    readPointer fmt (depth + 1) n = pure (.pointer target constant) := by
  rw [readPointer]
  refine bind_readStruct hc h
    (fun
      | .target, x => x = target
      | .constant, x => x = constant) ?_ ?_
  · intro f n hn
    cases f with
    | target => exact ⟨target, hread n hn, rfl⟩
    | constant =>
      cases hn
      exact ⟨constant, readFlag_flagNode hc constant, rfl⟩
  · intro draft hdraft
    simp only [required_of_meets (hdraft .target), pure_bind, getD_of_meets (hdraft .constant)]

theorem readArray_of_spells (hc : c.ReadBy fmt) {p : Node S → Prop} {element : AbiType}
    {count : UInt64} {n : Node S} {depth : Nat} (h : (arrayFilling c p count).Spells c n)
    (hread : ∀ n, p n → readType fmt depth n = pure element) :
    readArray fmt (depth + 1) n = pure (.array element count) := by
  rw [readArray]
  refine bind_readStruct hc h
    (fun
      | .element, x => x = element
      | .count, x => x = count) ?_ ?_
  · intro f n hn
    cases f with
    | element => exact ⟨element, hread n hn, rfl⟩
    | count =>
      cases hn
      exact ⟨count, readWord_wordNode hc count, rfl⟩
  · intro draft hdraft
    simp only [required_of_meets (hdraft .element), required_of_meets (hdraft .count), pure_bind]

theorem readAlias_of_spells (hc : c.ReadBy fmt) {name : String} {p : Node S → Prop}
    {underlying : AbiType} {n : Node S} {depth : Nat} (h : (aliasFilling c name p).Spells c n)
    (hread : ∀ n, p n → readType fmt depth n = pure underlying) :
    readAlias fmt (depth + 1) n = pure (.aliasOf name underlying) := by
  rw [readAlias]
  refine bind_readStruct hc h
    (fun
      | .name, x => x = name
      | .underlying, x => x = underlying) ?_ ?_
  · intro f n hn
    cases f with
    | name =>
      cases hn
      exact ⟨name, readText_textNode hc name, rfl⟩
    | underlying => exact ⟨underlying, hread n hn, rfl⟩
  · intro draft hdraft
    simp only [required_of_meets (hdraft .name), required_of_meets (hdraft .underlying), pure_bind]

theorem readRecord_of_spells (hc : c.ReadBy fmt) {name : String} {members : List Member}
    {p : Node S → Prop} {n : Node S} {depth : Nat}
    (h : (recordFilling c name members p).Spells c n)
    (hread : ∀ n, p n → readMembers fmt depth n = pure members) :
    readRecord fmt (depth + 1) n = pure (.record name members) := by
  rw [readRecord]
  refine bind_readStruct hc h
    (fun
      | .name, x => x = name
      | .members, x => x = members) ?_ ?_
  · intro f n hn
    cases f with
    | name =>
      cases hn
      exact ⟨name, readText_textNode hc name, rfl⟩
    | members => exact ⟨members, hread n hn, rfl⟩
  · intro draft hdraft
    simp only [required_of_meets (hdraft .name), pure_bind, getD_of_meets (hdraft .members)]

theorem readSimple_of_spells (hc : c.ReadBy fmt) {name : String} {p : Node S → Prop}
    {type : AbiType} {n : Node S} {depth : Nat} (h : (simpleFilling c name p).Spells c n)
    (hread : ∀ n, p n → readType fmt depth n = pure type) :
    readSimple fmt (depth + 1) n = pure (.simple name type) := by
  rw [readSimple]
  refine bind_readStruct hc h
    (fun
      | .name, x => x = name
      | .type, x => x = type) ?_ ?_
  · intro f n hn
    cases f with
    | name =>
      cases hn
      exact ⟨name, readText_textNode hc name, rfl⟩
    | type => exact ⟨type, hread n hn, rfl⟩
  · intro draft hdraft
    simp only [required_of_meets (hdraft .name), required_of_meets (hdraft .type), pure_bind]

theorem readVariant_of_spells (hc : c.ReadBy fmt) {alternatives : List Alternative}
    {p : Node S → Prop} {n : Node S} {depth : Nat} (h : (variantFilling p).Spells c n)
    (hread : ∀ n, p n → readAlternatives fmt depth n = pure alternatives) :
    readVariant fmt (depth + 1) n = pure (.variant alternatives) := by
  rw [readVariant]
  refine bind_readStruct hc h (fun _ x => x = alternatives) ?_ ?_
  · intro f n hn
    exact ⟨alternatives, hread n hn, rfl⟩
  · intro draft hdraft
    simp only [required_of_meets (hdraft .alternatives), pure_bind]

theorem readAlternative_of_spells (hc : c.ReadBy fmt) {name : Option String} {members : List Member}
    {p : Node S → Prop} {n : Node S} {depth : Nat}
    (h : (alternativeFilling c name members p).Spells c n)
    (hread : ∀ n, p n → readMembers fmt depth n = pure members) :
    readAlternative fmt (depth + 1) n = pure (.mk name members) := by
  rw [readAlternative]
  refine bind_readStruct hc h
    (fun
      | .name, x => x = name
      | .members, x => x = members) ?_ ?_
  · intro f n hn
    cases f with
    | name =>
      cases hn
      exact ⟨name, readOptional_optionNode hc name, rfl⟩
    | members => exact ⟨members, hread n hn, rfl⟩
  · intro draft hdraft
    simp only [getD_of_meets (hdraft .name), getD_of_meets (hdraft .members)]

theorem readRange_of_spells (hc : c.ReadBy fmt) {name : String} {p : Node S → Prop}
    {target : AbiType} {constant : Bool} {baseName lengthName : String} {n : Node S} {depth : Nat}
    (h : (rangeFilling c name p constant baseName lengthName).Spells c n)
    (hread : ∀ n, p n → readType fmt depth n = pure target) :
    readRange fmt (depth + 1) n = pure (.range name target constant baseName lengthName) := by
  rw [readRange]
  refine bind_readStruct hc h
    (fun
      | .name, x => x = name
      | .target, x => x = target
      | .constant, x => x = constant
      | .baseName, x => Option.getD x name = baseName
      | .lengthName, x => Option.getD x (Member.defaultLengthName name) = lengthName) ?_ ?_
  · intro f n hn
    cases f with
    | name =>
      cases hn
      exact ⟨name, readText_textNode hc name, rfl⟩
    | target => exact ⟨target, hread n hn, rfl⟩
    | constant =>
      cases hn
      exact ⟨constant, readFlag_flagNode hc constant, rfl⟩
    | baseName =>
      obtain ⟨o, rfl, ho⟩ := hn
      exact ⟨o, readOptional_optionNode hc o, ho⟩
    | lengthName =>
      obtain ⟨o, rfl, ho⟩ := hn
      exact ⟨o, readOptional_optionNode hc o, ho⟩
  · intro draft hdraft
    simp only [required_of_meets (hdraft .name), required_of_meets (hdraft .target), pure_bind,
      getD_of_meets (hdraft .constant), Member.rangeOf, getD_getD_of_meets (hdraft .baseName),
      getD_getD_of_meets (hdraft .lengthName)]

/-! ### Types and members -/

mutual

theorem readType_of_spelled (hc : c.ReadBy fmt) (t : AbiType) {n : Node S} {depth : Nat}
    (h : t.Spelled c n) (hdepth : t.dump.depth ≤ depth) : readType fmt depth n = pure t := by
  cases t with
  | void =>
    rw [AbiType.Spelled] at h
    rw [h, readType.eq_def]
    refine readChoice_textNode hc typeChoice .void ?_ _
    rfl
  | int kind =>
    rw [AbiType.Spelled] at h
    obtain ⟨d, rfl, -⟩ : ∃ d, depth = d + 1 ∧ 0 ≤ d := exists_add_of_le hdepth
    rw [h, readType]
    refine readChoice_choiceNode hc typeChoice .int rfl ?_
    simp only [readIntegral_textNode hc, pure_bind]
  | atomic target =>
    obtain ⟨content, rfl, hcontent⟩ := h
    rw [AbiType.dump, depth_tagged] at hdepth
    obtain ⟨d, rfl, hd⟩ := exists_add_of_le hdepth
    have htarget := readType_of_spelled hc target hcontent hd
    rw [readType]
    refine readChoice_choiceNode hc typeChoice .atomic rfl ?_
    simp only [htarget, pure_bind]
  | pointer target constant =>
    obtain ⟨content, rfl, hcontent⟩ := h
    rw [AbiType.depth_dump_pointer] at hdepth
    obtain ⟨d, rfl, hd⟩ := exists_add_of_le hdepth
    rw [readType]
    refine readChoice_choiceNode hc typeChoice .pointer rfl ?_
    exact readPointer_of_spells hc hcontent fun n hn => readType_of_spelled hc target hn hd
  | array element count =>
    obtain ⟨content, rfl, hcontent⟩ := h
    rw [AbiType.depth_dump_array] at hdepth
    obtain ⟨d, rfl, hd⟩ := exists_add_of_le hdepth
    rw [readType]
    refine readChoice_choiceNode hc typeChoice .array rfl ?_
    exact readArray_of_spells hc hcontent fun n hn => readType_of_spelled hc element hn hd
  | aliasOf name underlying =>
    obtain ⟨content, rfl, hcontent⟩ := h
    rw [AbiType.depth_dump_aliasOf] at hdepth
    obtain ⟨d, rfl, hd⟩ := exists_add_of_le hdepth
    rw [readType]
    refine readChoice_choiceNode hc typeChoice .aliasOf rfl ?_
    exact readAlias_of_spells hc hcontent fun n hn => readType_of_spelled hc underlying hn hd
  | intLike body =>
    obtain ⟨content, rfl, hcontent⟩ := h
    rw [AbiType.dump, depth_tagged] at hdepth
    obtain ⟨d, rfl, hd⟩ := exists_add_of_le hdepth
    rw [readType]
    refine readChoice_choiceNode hc typeChoice .intLike rfl ?_
    simp only [readIntLike_of_spelled hc hcontent hd, pure_bind]
  | userDefined name =>
    rw [AbiType.Spelled] at h
    obtain ⟨d, rfl, -⟩ : ∃ d, depth = d + 1 ∧ 0 ≤ d := exists_add_of_le hdepth
    rw [h, readType]
    refine readChoice_choiceNode hc typeChoice .userDefined rfl ?_
    simp only [readText_textNode hc, pure_bind]
  | record name members =>
    obtain ⟨content, rfl, hcontent⟩ := h
    rw [AbiType.depth_dump_record] at hdepth
    obtain ⟨d, rfl, hd⟩ := exists_add_of_le hdepth
    rw [readType]
    refine readChoice_choiceNode hc typeChoice .record rfl ?_
    refine readRecord_of_spells hc hcontent fun n hn => ?_
    obtain ⟨items, rfl, hitems⟩ := hn
    rw [readMembers]
    exact readSequence_of_forall₂ (readMembers_of_spelled hc members hitems hd)

theorem readMember_of_spelled (hc : c.ReadBy fmt) (m : Member) {n : Node S} {depth : Nat}
    (h : m.Spelled c n) (hdepth : m.dump.depth ≤ depth) : readMember fmt depth n = pure m := by
  cases m with
  | simple name type =>
    obtain ⟨content, rfl, hcontent⟩ := h
    rw [Member.depth_dump_simple] at hdepth
    obtain ⟨d, rfl, hd⟩ := exists_add_of_le hdepth
    rw [readMember]
    refine readChoice_choiceNode hc memberChoice .simple rfl ?_
    exact readSimple_of_spells hc hcontent fun n hn => readType_of_spelled hc type hn hd
  | variant alternatives =>
    obtain ⟨content, rfl, hcontent⟩ := h
    rw [Member.depth_dump_variant] at hdepth
    obtain ⟨d, rfl, hd⟩ := exists_add_of_le hdepth
    rw [readMember]
    refine readChoice_choiceNode hc memberChoice .variant rfl ?_
    refine readVariant_of_spells hc hcontent fun n hn => ?_
    obtain ⟨items, rfl, hitems⟩ := hn
    rw [readAlternatives]
    exact readSequence_of_forall₂ (readAlternatives_of_spelled hc alternatives hitems hd)
  | range name target constant baseName lengthName =>
    obtain ⟨content, rfl, hcontent⟩ := h
    rw [Member.depth_dump_range] at hdepth
    obtain ⟨d, rfl, hd⟩ := exists_add_of_le hdepth
    rw [readMember]
    refine readChoice_choiceNode hc memberChoice .range rfl ?_
    exact readRange_of_spells hc hcontent fun n hn => readType_of_spelled hc target hn hd

theorem readAlternative_of_spelled (hc : c.ReadBy fmt) (a : Alternative) {n : Node S} {depth : Nat}
    (h : a.Spelled c n) (hdepth : a.dump.depth ≤ depth) : readAlternative fmt depth n = pure a := by
  cases a with
  | mk name members =>
    rw [Alternative.depth_dump] at hdepth
    obtain ⟨d, rfl, hd⟩ := exists_add_of_le hdepth
    refine readAlternative_of_spells hc h fun n hn => ?_
    obtain ⟨items, rfl, hitems⟩ := hn
    rw [readMembers]
    exact readSequence_of_forall₂ (readMembers_of_spelled hc members hitems hd)

theorem readMembers_of_spelled (hc : c.ReadBy fmt) (members : List Member) {items : List (Node S)}
    {depth : Nat} (h : MembersSpelled c members items)
    (hdepth : Node.depthAll (membersDump members) ≤ depth) :
    List.Forall₂ (fun m n => readMember fmt depth n = pure m) members items := by
  cases members with
  | nil =>
    rw [MembersSpelled] at h
    rw [h]
    exact .nil
  | cons m rest =>
    obtain ⟨n, others, rfl, hn, hothers⟩ := h
    rw [membersDump, Node.depthAll, Nat.max_le] at hdepth
    exact .cons (readMember_of_spelled hc m hn hdepth.1)
      (readMembers_of_spelled hc rest hothers hdepth.2)

theorem readAlternatives_of_spelled (hc : c.ReadBy fmt) (alternatives : List Alternative)
    {items : List (Node S)} {depth : Nat} (h : AlternativesSpelled c alternatives items)
    (hdepth : Node.depthAll (alternativesDump alternatives) ≤ depth) :
    List.Forall₂ (fun a n => readAlternative fmt depth n = pure a) alternatives items := by
  cases alternatives with
  | nil =>
    rw [AlternativesSpelled] at h
    rw [h]
    exact .nil
  | cons a rest =>
    obtain ⟨n, others, rfl, hn, hothers⟩ := h
    rw [alternativesDump, Node.depthAll, Nat.max_le] at hdepth
    exact .cons (readAlternative_of_spelled hc a hn hdepth.1)
      (readAlternatives_of_spelled hc rest hothers hdepth.2)

end

/-! ### Descriptions -/

theorem readTypes_of_spelled (hc : c.ReadBy fmt) {types : List AbiType} {n : Node S} {depth : Nat}
    (h : n.Lists (List.Forall₂ (AbiType.Spelled c) types))
    (hdepth : ∀ t ∈ types, t.dump.depth ≤ depth) : readTypes fmt (depth + 1) n = pure types := by
  obtain ⟨items, rfl, hitems⟩ := h
  refine readSequence_of_forall₂ (((List.forall₂_and_left _ _).2 ⟨hdepth, hitems⟩).imp ?_)
  intro t n ht
  exact readType_of_spelled hc t ht.2 ht.1

theorem readInterface_of_spelled (hc : c.ReadBy fmt) {i : Interface} {n : Node S} {depth : Nat}
    (h : i.Spelled c n) : readInterface fmt (depth + 1) n = pure i := by
  rw [readInterface]
  refine bind_readStruct hc h
    (fun
      | .name, x => x = i.name
      | .description, x => x = i.description) ?_ ?_
  · intro f n hn
    cases f with
    | name =>
      cases hn
      exact ⟨i.name, readText_textNode hc i.name, rfl⟩
    | description =>
      cases hn
      exact ⟨i.description, readOptional_optionNode hc i.description, rfl⟩
  · intro draft hdraft
    simp only [required_of_meets (hdraft .name), pure_bind, getD_of_meets (hdraft .description)]

theorem readDescription_of_spelled (hc : c.ReadBy fmt) {f : Description} {n : Node S} {depth : Nat}
    (h : f.Spelled c n) (hdepth : f.dump.depth ≤ depth) : readDescription fmt depth n = pure f := by
  rw [Description.depth_dump] at hdepth
  obtain ⟨d, rfl, hd⟩ := exists_add_of_le hdepth
  rw [Node.depthAll_le_iff, List.forall_mem_map] at hd
  rw [readDescription]
  refine bind_readStruct hc h
    (fun
      | .interface, x => x = f.interface
      | .types, x => x = f.types) ?_ ?_
  · intro field n hn
    cases field with
    | interface => exact ⟨f.interface, readInterface_of_spelled hc hn, rfl⟩
    | types => exact ⟨f.types, readTypes_of_spelled hc hn hd, rfl⟩
  · intro draft hdraft
    simp only [required_of_meets (hdraft .interface), pure_bind, getD_of_meets (hdraft .types)]

end

end AbiLayout
