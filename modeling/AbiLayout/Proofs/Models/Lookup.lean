import AbiLayout.Description.Model

/-!
# Types looked up by name

The index of a model is filled while its types are visited, and types are found through it ever after. Main
statement: the index has one entry for each type with a name, which leads to that type, so that looking up
a name finds the one type that bears it, if there is one.
-/

namespace AbiLayout

namespace NameIndex

/-- An index accounts for a list of types: it binds their names, in their order, and binds each to the
position of a type that bears it. -/
structure Accounts (index : NameIndex) (types : List AbiType) : Prop where
  names : index.names = types.filterMap AbiType.name?
  mem_iff : ∀ n i, (n, i) ∈ index ↔ ∃ t, types[i]? = some t ∧ t.name? = some n

theorem accounts_nil : Accounts [] [] := ⟨rfl, by simp⟩

/-- The types so far and one more, whose name is put behind the others. -/
theorem Accounts.visit {index : NameIndex} {done : List AbiType} (h : index.Accounts done) (t : AbiType) :
    Accounts (index ++ t.name?.toList.map fun n => (n, done.length)) (done ++ [t]) where
  names := by
    rw [NameIndex.names, List.map_append, List.filterMap_append, ← NameIndex.names, h.names]
    cases hn : t.name? <;> simp [hn]
  mem_iff := by
    intro n i
    have hlast : (n, i) ∈ t.name?.toList.map (fun n => (n, done.length)) ↔
        i = done.length ∧ t.name? = some n := by
      cases t.name? <;> simp [and_comm, eq_comm]
    rw [List.mem_append, h.mem_iff, hlast]
    rcases Nat.lt_trichotomy i done.length with hlt | rfl | hgt
    · rw [List.getElem?_append_left hlt]
      simp [Nat.ne_of_lt hlt]
    · simp
    · have hout : (done ++ [t])[i]? = none := by
        rw [List.getElem?_eq_none_iff, List.length_append, List.length_singleton]
        omega
      have hdone : done[i]? = none := List.getElem?_eq_none (Nat.le_of_lt hgt)
      simp [hout, hdone, Nat.ne_of_gt hgt]

/-- A run over more types ends with an index that accounts for those done before and for these. -/
theorem Accounts.run {index : NameIndex} {done : List AbiType} (h : index.Accounts done)
    {rest : List AbiType} {result : NameIndex} (hrun : indexTypes done.length index rest = .ok result) :
    result.Accounts (done ++ rest) := by
  induction rest generalizing index done with
  | nil =>
    cases hrun
    rw [List.append_nil]
    exact h
  | cons t rest ih =>
    have hlength : done.length + 1 = (done ++ [t]).length := by simp
    rw [indexTypes_cons, hlength] at hrun
    cases hfault : t.fault? index.names with
    | some e =>
      rw [hfault] at hrun
      cases hrun
    | none =>
      rw [hfault] at hrun
      have hall := ih (h.visit t) hrun
      rwa [List.append_assoc] at hall

theorem lookup_eq_some_iff {index : NameIndex} (h : index.names.Nodup) (n : String) (i : Nat) :
    index.lookup n = some i ↔ (n, i) ∈ index := by
  induction index with
  | nil => simp
  | cons entry rest ih =>
    obtain ⟨other, j⟩ := entry
    obtain ⟨hother, hrest⟩ := List.nodup_cons.1 h
    rw [List.lookup_cons, List.mem_cons, Prod.mk.injEq]
    by_cases hn : n = other
    · subst hn
      have hnot : (n, i) ∉ rest := fun hmem => hother (List.mem_map.2 ⟨(n, i), hmem, rfl⟩)
      simp [hnot, eq_comm]
    · have hne : (n == other) = false := by simpa using hn
      simp [hne, hn, ih hrest]

end NameIndex

namespace Model

variable (m : Model)

theorem accounts_index : m.index.Accounts m.types := NameIndex.accounts_nil.run m.indexed

theorem nodup_index : m.index.names.Nodup := by
  rw [m.accounts_index.names]
  exact m.distinct

/-- What the index holds for a name is the position of the type of that name. -/
theorem lookup_index_eq_some_iff (s : String) (i : Nat) :
    m.index.lookup s = some i ↔ ∃ t, m.types[i]? = some t ∧ t.name? = some s := by
  rw [NameIndex.lookup_eq_some_iff m.nodup_index, m.accounts_index.mem_iff]

theorem get?_eq_some_iff (s : String) (t : AbiType) :
    m.get? s = some t ↔ t ∈ m.types ∧ t.name? = some s := by
  rw [get?, Option.bind_eq_some_iff, List.mem_iff_getElem?]
  simp only [lookup_index_eq_some_iff]
  constructor
  · rintro ⟨i, ⟨u, hu, hname⟩, ht⟩
    obtain rfl := Option.some.inj (hu.symm.trans ht)
    exact ⟨⟨i, ht⟩, hname⟩
  · rintro ⟨⟨i, ht⟩, hname⟩
    exact ⟨i, ⟨t, ht, hname⟩, ht⟩

end Model

/-! ### The one type of a name -/

theorem nodup_filterMap_cons {t : AbiType} {rest : List AbiType}
    (h : ((t :: rest).filterMap AbiType.name?).Nodup) :
    (∀ s, t.name? = some s → ∀ u ∈ rest, u.name? ≠ some s) ∧ (rest.filterMap AbiType.name?).Nodup := by
  cases hn : t.name? with
  | none =>
    rw [List.filterMap_cons_none hn] at h
    refine ⟨?_, h⟩
    rintro s ⟨⟩
  | some name =>
    rw [List.filterMap_cons_some hn, List.nodup_cons, List.mem_filterMap] at h
    refine ⟨?_, h.2⟩
    rintro s ⟨⟩ u hu hname
    exact h.1 ⟨u, hu, hname⟩

/-- Among types of different names the one that bears a given name is all that a search can find. -/
theorem filter_name_eq_singleton {types : List AbiType} (hdistinct : (types.filterMap AbiType.name?).Nodup)
    {s : String} {t : AbiType} (ht : t ∈ types) (hname : t.name? = some s) :
    types.filter (fun u => u.name? = some s) = [t] := by
  induction types with
  | nil => cases ht
  | cons u rest ih =>
    obtain ⟨hnew, hrest⟩ := nodup_filterMap_cons hdistinct
    rcases List.mem_cons.1 ht with rfl | ht
    · have hnone : rest.filter (fun u => u.name? = some s) = [] := by
        simpa using hnew s hname
      simp [hname, hnone]
    · have hother : u.name? ≠ some s := fun hu => hnew s hu t ht hname
      simp [hother, ih hrest ht]

theorem AbiType.type_of_record? {t : AbiType} {r : Record} (h : t.record? = some r) : r.type = t := by
  cases t with
  | record name members =>
    cases h
    rfl
  | _ => cases h

theorem map_type_filterMap_record? (types : List AbiType) :
    (types.filterMap AbiType.record?).map Record.type = types.filter (fun t => t.record?.isSome) := by
  induction types with
  | nil => rfl
  | cons t rest ih =>
    cases hr : t.record? with
    | none => simp [hr, ih]
    | some r => simp [hr, ih, AbiType.type_of_record? hr]

/-- In a model of given types, these are the types of the model in their order, and its records are those
among them. The index has one entry for each type with a name, in order, and each entry leads to a type that
bears its name, so the position found for a name is always one of a type. What is found for a name is the
one type that bears it, and nothing is found exactly if no type does. -/
theorem Model.build_lookup (name : String) (types : List AbiType) (m : Model)
    (h : Model.build name types = .ok m) :
    m.types = types ∧ m.records.map Record.type = types.filter (fun t => t.record?.isSome) ∧
    m.index.names = types.filterMap AbiType.name? ∧ m.index.names.Nodup ∧
    (∀ n i, (n, i) ∈ m.index ↔ ∃ t, types[i]? = some t ∧ t.name? = some n) ∧
    (∀ s i, m.index.lookup s = some i → i < types.length) ∧
    (∀ s t, m.get? s = some t ↔ types.filter (fun u => u.name? = some s) = [t]) ∧
    ∀ s, m.get? s = none ↔ ∀ t ∈ types, t.name? ≠ some s := by
  obtain ⟨_, rfl⟩ := (Model.build_eq_ok_iff name types m).1 h
  refine ⟨rfl, ?_, m.accounts_index.names, m.nodup_index, m.accounts_index.mem_iff, ?_, ?_, ?_⟩
  · exact map_type_filterMap_record? m.types
  · intro s i hi
    obtain ⟨t, ht, _⟩ := (m.lookup_index_eq_some_iff s i).1 hi
    exact (List.getElem?_eq_some_iff.1 ht).1
  · intro s t
    rw [m.get?_eq_some_iff]
    constructor
    · rintro ⟨ht, hname⟩
      exact filter_name_eq_singleton m.distinct ht hname
    · intro hone
      have ht : t ∈ m.types.filter fun u => u.name? = some s := by
        rw [hone]
        exact List.mem_singleton_self t
      simpa using ht
  · intro s
    rw [Option.eq_none_iff_forall_ne_some]
    simp only [ne_eq, m.get?_eq_some_iff, not_and]

/-- Types without a name stand between those with one. -/
def deviceTypes : List AbiType :=
  [.int .uint8, .aliasOf "fd" (.int .uint32), .pointer (.userDefined "fd") true,
    .record "event" [.simple "fd" (.userDefined "fd")], .void, .userDefined "handle"]

def deviceModel : Model := .ofTypes "device" deviceTypes rfl

theorem Model.build_lookup_devices :
    Model.build "device" deviceTypes = .ok deviceModel ∧
    deviceModel.index = [("fd", 1), ("event", 3), ("handle", 5)] ∧
    deviceModel.index.names = deviceTypes.filterMap AbiType.name? ∧
    deviceTypes.filter (fun u => u.name? = some "event") =
      [.record "event" [.simple "fd" (.userDefined "fd")]] ∧
    deviceModel.get? "event" = some (.record "event" [.simple "fd" (.userDefined "fd")]) ∧
    deviceModel.get? "fd2" = none := by
  have hbuilt : Model.build "device" deviceTypes = .ok deviceModel := deviceModel.build_self
  obtain ⟨_, _, hnames, _, _, _, hfound, hmissing⟩ := Model.build_lookup _ _ _ hbuilt
  have hone : deviceTypes.filter (fun u => u.name? = some "event") =
      [.record "event" [.simple "fd" (.userDefined "fd")]] := by rfl
  refine ⟨hbuilt, by rfl, hnames, hone, (hfound _ _).2 hone, (hmissing "fd2").2 ?_⟩
  simp [deviceTypes, AbiType.name?]

end AbiLayout
