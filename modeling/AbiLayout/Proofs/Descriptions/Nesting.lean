import AbiLayout.Proofs.Descriptions.Accepting

/-!
# How deep descriptions are nested

The full written form shows lists that are left out elsewhere, and nothing that is nested in them. Main
statement: it is nested at most one deeper than anything that spells the same description.
-/

namespace AbiLayout

open Document

variable {S : Type} {c : Script S}

/-! ### Fields of structs -/

section

variable {sh : Shape} {w : Filling sh S}

/-- The field is left out, or what stands there is nested less deep than the bound. -/
def Document.Filling.Inside (w : Filling sh S) (f : sh.Field) (bound : Nat) : Prop :=
  w.mayOmit f ∨ ∃ m, w.accepts f m ∧ m.depth < bound

theorem Document.Filling.Inside.mono {f : sh.Field} {bound bound' : Nat} (h : w.Inside f bound)
    (hle : bound ≤ bound') : w.Inside f bound' := by
  rcases h with homit | ⟨m, hm, hdepth⟩
  · exact .inl homit
  · exact .inr ⟨m, hm, by omega⟩

theorem inside_of_object {missing : List sh.Field} {entries : List (Node S × Node S)}
    (h : w.Object c missing entries) {f : sh.Field} (hf : f ∈ missing) :
    w.Inside f (Node.depthEntries entries + 1) := by
  induction h with
  | done homit => exact .inl (homit f hf)
  | @field _ g n entries hg hn _ ih =>
    rw [Node.depthEntries]
    by_cases hfg : f = g
    · subst hfg
      exact .inr ⟨n, hn, by omega⟩
    · exact (ih ((List.mem_erase_of_ne hfg).2 hf)).mono (by omega)
  | foreign _ _ _ ih =>
    rw [Node.depthEntries]
    exact (ih hf).mono (by omega)

theorem inside_of_positions {fields : List sh.Field} {items : List (Node S)}
    (h : w.Positions fields items) {f : sh.Field} (hf : f ∈ fields) :
    w.Inside f (Node.depthAll items + 1) := by
  induction h with
  | done homit => exact .inl (homit f hf)
  | @item g _ n _ hn _ ih =>
    rw [Node.depthAll]
    rcases List.mem_cons.1 hf with rfl | hf
    · exact .inr ⟨n, hn, by omega⟩
    · exact (ih hf).mono (by omega)

theorem depth_pos_of_spells {n : Node S} (h : w.Spells c n) : 0 < n.depth := by
  cases h with
  | object _ =>
    rw [Node.depth]
    omega
  | sequence _ _ =>
    rw [Node.depth]
    omega

/-- A field that is not left out stands inside of the struct. -/
theorem inside_of_spells [sh.Lawful] {n : Node S} (h : w.Spells c n) (f : sh.Field) :
    w.Inside f n.depth := by
  have hmem := Shape.Lawful.mem_fields f
  cases h with
  | object h => exact inside_of_object h hmem
  | sequence _ h => exact inside_of_positions h hmem

theorem exists_required [sh.Lawful] {n : Node S} (h : w.Spells c n) (f : sh.Field)
    (hf : ¬ w.mayOmit f) : ∃ m, w.accepts f m ∧ m.depth < n.depth :=
  (inside_of_spells h f).resolve_left hf

end

theorem depth_choiceNode (key : String) (content : Node S) :
    (c.choiceNode key content).depth = content.depth + 1 := by
  simp [Script.choiceNode, Script.textNode, Node.depth, Node.depthEntries]

/-! ### Types and members -/

theorem depthAll_values_le (values : List NamedValue) :
    Node.depthAll (values.map NamedValue.dump) ≤ 1 := by
  rw [Node.depthAll_le_iff, List.forall_mem_map]
  intro v _
  simp [NamedValue.dump]

theorem IntLike.depth_dump_le {e : IntLike} {n : Node S} (h : e.Spelled c n) :
    e.dump.depth ≤ n.depth + 1 := by
  have hpos := depth_pos_of_spells h
  have hvalues := depthAll_values_le e.values
  rw [IntLike.depth_dump]
  obtain homit | ⟨m, ⟨items, rfl, -⟩, hm⟩ := inside_of_spells h .values
  · have hnone : e.values = [] := homit
    rw [hnone, List.map_nil, Node.depthAll]
    omega
  · rw [Node.depth] at hm
    omega

mutual

theorem AbiType.depth_dump_le (t : AbiType) {n : Node S} (h : t.Spelled c n) :
    t.dump.depth ≤ n.depth + 1 := by
  cases t with
  | void => exact Nat.zero_le _
  | int kind =>
    rw [AbiType.dump, depth_tagged, Json.Tree.depth_text]
    omega
  | atomic target =>
    obtain ⟨content, rfl, hcontent⟩ := h
    have htarget := target.depth_dump_le hcontent
    rw [AbiType.dump, depth_tagged, depth_choiceNode]
    omega
  | pointer target constant =>
    obtain ⟨content, rfl, hcontent⟩ := h
    obtain ⟨m, hm, hlt⟩ := exists_required hcontent .target id
    have htarget := target.depth_dump_le hm
    rw [AbiType.depth_dump_pointer, depth_choiceNode]
    omega
  | array element count =>
    obtain ⟨content, rfl, hcontent⟩ := h
    obtain ⟨m, hm, hlt⟩ := exists_required hcontent .element id
    have helement := element.depth_dump_le hm
    rw [AbiType.depth_dump_array, depth_choiceNode]
    omega
  | aliasOf name underlying =>
    obtain ⟨content, rfl, hcontent⟩ := h
    obtain ⟨m, hm, hlt⟩ := exists_required hcontent .underlying id
    have hunderlying := underlying.depth_dump_le hm
    rw [AbiType.depth_dump_aliasOf, depth_choiceNode]
    omega
  | intLike body =>
    obtain ⟨content, rfl, hcontent⟩ := h
    have hbody := IntLike.depth_dump_le hcontent
    rw [AbiType.dump, depth_tagged, depth_choiceNode]
    omega
  | userDefined name =>
    rw [AbiType.dump, depth_tagged, Json.Tree.depth_text]
    omega
  | record name members =>
    obtain ⟨content, rfl, hcontent⟩ := h
    have hpos := depth_pos_of_spells hcontent
    rw [AbiType.depth_dump_record, depth_choiceNode]
    obtain homit | ⟨m, ⟨items, rfl, hitems⟩, hlt⟩ := inside_of_spells hcontent .members
    · obtain rfl : members = [] := homit
      rw [membersDump, Node.depthAll]
      omega
    · have hmembers := depthAll_membersDump_le members hitems
      rw [Node.depth] at hlt
      omega

theorem Member.depth_dump_le (m : Member) {n : Node S} (h : m.Spelled c n) :
    m.dump.depth ≤ n.depth + 1 := by
  cases m with
  | simple name type =>
    obtain ⟨content, rfl, hcontent⟩ := h
    obtain ⟨m, hm, hlt⟩ := exists_required hcontent .type id
    have htype := type.depth_dump_le hm
    rw [Member.depth_dump_simple, depth_choiceNode]
    omega
  | variant alternatives =>
    obtain ⟨content, rfl, hcontent⟩ := h
    obtain ⟨m, ⟨items, rfl, hitems⟩, hlt⟩ := exists_required hcontent .alternatives id
    have halternatives := depthAll_alternativesDump_le alternatives hitems
    rw [Node.depth] at hlt
    rw [Member.depth_dump_variant, depth_choiceNode]
    omega
  | range name target constant baseName lengthName =>
    obtain ⟨content, rfl, hcontent⟩ := h
    obtain ⟨m, hm, hlt⟩ := exists_required hcontent .target id
    have htarget := target.depth_dump_le hm
    rw [Member.depth_dump_range, depth_choiceNode]
    omega

theorem Alternative.depth_dump_le (a : Alternative) {n : Node S} (h : a.Spelled c n) :
    a.dump.depth ≤ n.depth + 1 := by
  cases a with
  | mk name members =>
    have hpos := depth_pos_of_spells h
    rw [Alternative.depth_dump]
    obtain homit | ⟨m, ⟨items, rfl, hitems⟩, hlt⟩ := inside_of_spells h .members
    · obtain rfl : members = [] := homit
      rw [membersDump, Node.depthAll]
      omega
    · have hmembers := depthAll_membersDump_le members hitems
      rw [Node.depth] at hlt
      omega

theorem depthAll_membersDump_le (members : List Member) {items : List (Node S)}
    (h : MembersSpelled c members items) :
    Node.depthAll (membersDump members) ≤ Node.depthAll items + 1 := by
  cases members with
  | nil => exact Nat.zero_le _
  | cons m rest =>
    obtain ⟨n, others, rfl, hm, hrest⟩ := h
    have hfirst := m.depth_dump_le hm
    have hothers := depthAll_membersDump_le rest hrest
    rw [membersDump, Node.depthAll, Node.depthAll]
    omega

theorem depthAll_alternativesDump_le (alternatives : List Alternative) {items : List (Node S)}
    (h : AlternativesSpelled c alternatives items) :
    Node.depthAll (alternativesDump alternatives) ≤ Node.depthAll items + 1 := by
  cases alternatives with
  | nil => exact Nat.zero_le _
  | cons a rest =>
    obtain ⟨n, others, rfl, ha, hrest⟩ := h
    have hfirst := a.depth_dump_le ha
    have hothers := depthAll_alternativesDump_le rest hrest
    rw [alternativesDump, Node.depthAll, Node.depthAll]
    omega

end

/-! ### Descriptions -/

theorem depthAll_typesDump_le {types : List AbiType} {items : List (Node S)}
    (h : List.Forall₂ (AbiType.Spelled c) types items) :
    Node.depthAll (types.map AbiType.dump) ≤ Node.depthAll items + 1 := by
  induction h with
  | nil => exact Nat.zero_le _
  | cons ht _ ih =>
    have hfirst := AbiType.depth_dump_le _ ht
    rw [List.map_cons, Node.depthAll, Node.depthAll]
    omega

theorem Description.depth_dump_le {f : Description} {n : Node S} (h : f.Spelled c n) :
    f.dump.depth ≤ n.depth + 1 := by
  obtain ⟨i, hi, hlt⟩ := exists_required h .interface id
  have hpos := depth_pos_of_spells hi
  rw [Description.depth_dump]
  obtain homit | ⟨m, ⟨items, rfl, hitems⟩, hlt'⟩ := inside_of_spells h .types
  · have hnone : f.types = [] := homit
    rw [hnone, List.map_nil, Node.depthAll]
    omega
  · have htypes := depthAll_typesDump_le hitems
    rw [Node.depth] at hlt'
    omega

end AbiLayout
