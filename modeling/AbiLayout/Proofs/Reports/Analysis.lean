import AbiLayout.Report.Analysis

/-!
# What an analysis reports

The analysis of a model goes from type to type and places each entry under its name; a name that came
before would cost an entry. Main statement: since the names of a model are distinct, nothing is
replaced, and the analysis ends with what there is to say about each type, in the order of the model.
-/

namespace AbiLayout

open Cpp

def enumEntry (lead : String) (e : IntLike) : EnumEntry :=
  ⟨e.name, mangle e.name, (canonical lead).named e.name, e.intType, e.flags,
    e.values.map (valueEntry lead e)⟩

def recordEntry (lead : String) (lengthMember : Option String) (r : Record) : RecordEntry :=
  ⟨r.name, mangle r.name, (canonical lead).named r.name, sharedOffsets r.members lengthMember⟩

/-- The named types that a report is about: all, or those of one name. -/
def reportedTypes (types : List AbiType) (only : Option String) : List AbiType :=
  types.filter fun t => t.name?.any fun name => only.all (· == name)

/-- What there is to say about a list of types, restricted to one name where `only` gives it. -/
def Report.ofTypes (s : Settings) (abi : String) (types : List AbiType) (only : Option String) :
    Report :=
  let considered := reportedTypes types only
  let kept := considered.filter fun t => !(t.name?.any s.excludes)
  { abi := abi
    excluded := (considered.filterMap AbiType.name?).filter s.excludes
    enums := (kept.filterMap AbiType.intLike?).map (enumEntry s.canonicalLead)
    records :=
      (kept.filterMap AbiType.record?).map (recordEntry s.canonicalLead s.rangeLengthMember) }

/-- What there is to say about a model, type by type. -/
def Report.ofModel (s : Settings) (m : Model) (only : Option String) : Report :=
  .ofTypes s m.name m.types only

theorem placeEntry_of_new {α : Type} (name : α → String) (entry : α) (l : List α)
    (h : name entry ∉ l.map name) : placeEntry name entry l = l ++ [entry] := by
  induction l with
  | nil => rfl
  | cons e rest ih =>
    rw [List.map_cons, List.mem_cons, not_or] at h
    have hne : ¬ name e = name entry := fun he => h.1 he.symm
    rw [placeEntry, if_neg hne, ih h.2, List.cons_append]

theorem AbiType.name?_of_intLike? {t : AbiType} {e : IntLike} (h : t.intLike? = some e) :
    t.name? = some e.name := by
  cases t with
  | intLike body =>
    cases h
    rfl
  | _ => cases h

theorem AbiType.name?_of_record? {t : AbiType} {r : Record} (h : t.record? = some r) :
    t.name? = some r.name := by
  cases t with
  | record name members =>
    cases h
    rfl
  | _ => cases h

namespace Report

def join (r q : Report) : Report :=
  ⟨r.abi, r.excluded ++ q.excluded, r.enums ++ q.enums, r.records ++ q.records⟩

theorem ofTypes_append (s : Settings) (abi : String) (a b : List AbiType) (only : Option String) :
    ofTypes s abi (a ++ b) only = (ofTypes s abi a only).join (ofTypes s abi b only) := by
  simp only [ofTypes, join, reportedTypes, List.filter_append, List.filterMap_append, List.map_append]

/-- Entries are about types of the list. -/
theorem mem_names_of_ofTypes (s : Settings) (abi : String) (types : List AbiType)
    (only : Option String) (name : String) :
    (name ∈ (ofTypes s abi types only).enums.map EnumEntry.name →
      name ∈ types.filterMap AbiType.name?) ∧
    (name ∈ (ofTypes s abi types only).records.map RecordEntry.name →
      name ∈ types.filterMap AbiType.name?) := by
  have hkept : ∀ t ∈ (reportedTypes types only).filter fun t => !(t.name?.any s.excludes), t ∈ types := by
    intro t ht
    rw [reportedTypes, List.mem_filter, List.mem_filter] at ht
    exact ht.1.1
  constructor
  · intro h
    rw [ofTypes, List.map_map, List.mem_map] at h
    obtain ⟨e, he, hname⟩ := h
    obtain ⟨t, ht, hte⟩ := List.mem_filterMap.1 he
    rw [← hname]
    exact List.mem_filterMap.2 ⟨t, hkept t ht, AbiType.name?_of_intLike? hte⟩
  · intro h
    rw [ofTypes, List.map_map, List.mem_map] at h
    obtain ⟨r, hr, hname⟩ := h
    obtain ⟨t, ht, htr⟩ := List.mem_filterMap.1 hr
    rw [← hname]
    exact List.mem_filterMap.2 ⟨t, hkept t ht, AbiType.name?_of_record? htr⟩

theorem addEnum_of_new (r : Report) (e : EnumEntry) (h : e.name ∉ r.enums.map EnumEntry.name) :
    r.addEnum e = { r with enums := r.enums ++ [e] } := by
  rw [addEnum, placeEntry_of_new EnumEntry.name e r.enums h]

theorem addRecord_of_new (r : Report) (e : RecordEntry)
    (h : e.name ∉ r.records.map RecordEntry.name) :
    r.addRecord e = { r with records := r.records ++ [e] } := by
  rw [addRecord, placeEntry_of_new RecordEntry.name e r.records h]

theorem join_empty (r : Report) (abi : String) : r.join ⟨abi, [], [], []⟩ = r := by
  simp only [join, List.append_nil]

/-! ### One type

A type is passed over, left out or kept, on both sides in the same way. -/

/-- The report with the entry of a type that is kept. -/
def addKept (s : Settings) (r : Report) : AbiType → Report
  | .intLike body => r.addEnum (enumEntry s.canonicalLead body)
  | .record name members => r.addRecord (recordEntry s.canonicalLead s.rangeLengthMember ⟨name, members⟩)
  | _ => r

section

variable (s : Settings) (abi : String) (only : Option String) (r : Report) (t : AbiType)

def concerns (only : Option String) (t : AbiType) : Bool := t.name?.any fun name => only.all (· == name)

theorem any_ne_of_all_eq (name : String) : only.any (· != name) = !only.all (· == name) := by
  cases only with
  | none => rfl
  | some wanted => rfl

theorem ofTypes_of_passed (h : concerns only t = false) : ofTypes s abi [t] only = ⟨abi, [], [], []⟩ := by
  have hnone : reportedTypes [t] only = [] := by
    rw [concerns] at h
    rw [reportedTypes, List.filter_cons, h]
    rfl
  rw [ofTypes, hnone]
  rfl

theorem visit_of_passed (h : concerns only t = false) : visit s only r t = .ok r := by
  cases hname : t.name? with
  | none => simp only [visit, hname]
  | some name =>
    rw [concerns, hname, Option.any_some] at h
    simp only [visit, hname, any_ne_of_all_eq, h, Bool.not_false, if_true]

variable {only t} {name : String} (hname : t.name? = some name) (honly : only.all (· == name) = true)

include hname honly

theorem reportedTypes_of_concerned : reportedTypes [t] only = [t] := by
  rw [reportedTypes, List.filter_cons, hname, Option.any_some, honly]
  rfl

theorem ofTypes_of_excluded (hex : s.excludes name = true) :
    ofTypes s abi [t] only = ⟨abi, [name], [], []⟩ := by
  rw [ofTypes, reportedTypes_of_concerned hname honly]
  simp [hname, hex]

theorem visit_of_excluded (hex : s.excludes name = true) :
    visit s only r t = .ok { r with excluded := r.excluded ++ [name] } := by
  simp only [visit, hname, any_ne_of_all_eq, honly, hex, Bool.not_true, Bool.false_eq_true, if_false,
    if_true]

theorem ofTypes_of_kept (hex : s.excludes name = false) :
    ofTypes s abi [t] only = ⟨abi, [], t.intLike?.toList.map (enumEntry s.canonicalLead),
      t.record?.toList.map (recordEntry s.canonicalLead s.rangeLengthMember)⟩ := by
  rw [ofTypes, reportedTypes_of_concerned hname honly]
  cases ht : t.intLike? <;> cases hr : t.record? <;> simp [hname, hex, ht, hr]

theorem visit_of_kept (hex : s.excludes name = false) :
    visit s only r t = .ok (r.addKept s t) := by
  simp only [visit, hname, any_ne_of_all_eq, honly, hex, Bool.not_true, Bool.false_eq_true, if_false]
  cases t with
  | intLike body =>
    cases hname
    rw [Spelling.spell, Spelling.spell]
    rfl
  | record name members =>
    cases hname
    rw [Spelling.spell, Spelling.spell]
    rfl
  | _ => rfl

end

/-- A type whose name is new extends the report on the types before it. -/
theorem visit_ofTypes (s : Settings) (abi : String) (types : List AbiType) (t : AbiType)
    (only : Option String) (hnew : ∀ name ∈ t.name?, name ∉ types.filterMap AbiType.name?) :
    visit s only (ofTypes s abi types only) t = .ok (ofTypes s abi (types ++ [t]) only) := by
  rw [ofTypes_append]
  cases hc : concerns only t with
  | false => rw [visit_of_passed s only _ t hc, ofTypes_of_passed s abi only t hc, join_empty]
  | true =>
    obtain ⟨name, hname, honly⟩ := (Option.any_eq_true _ _).1 hc
    cases hex : s.excludes name with
    | true =>
      rw [visit_of_excluded s _ hname honly hex, ofTypes_of_excluded s abi hname honly hex]
      simp [join]
    | false =>
      rw [visit_of_kept s _ hname honly hex, ofTypes_of_kept s abi hname honly hex]
      -- an entry goes behind the others because none of them is about a type of this name
      have hfresh : name ∉ types.filterMap AbiType.name? := hnew name hname
      have hmem := mem_names_of_ofTypes s abi types only name
      cases t with
      | intLike body =>
        cases hname
        rw [addKept, addEnum_of_new _ _ fun hm => hfresh (hmem.1 hm)]
        simp [join, AbiType.intLike?, AbiType.record?]
      | record n members =>
        cases hname
        rw [addKept, addRecord_of_new _ _ fun hm => hfresh (hmem.2 hm)]
        simp [join, AbiType.intLike?, AbiType.record?]
      | _ => simp [addKept, join, AbiType.intLike?, AbiType.record?]

theorem foldlM_visit_ofTypes (s : Settings) (abi : String) (only : Option String)
    (types rest : List AbiType) (h : ((types ++ rest).filterMap AbiType.name?).Nodup) :
    rest.foldlM (visit s only) (ofTypes s abi types only) = .ok (ofTypes s abi (types ++ rest) only) := by
  -- the report is that on the types before, and their names are not met again
  induction rest generalizing types with
  | nil =>
    rw [List.append_nil]
    rfl
  | cons t rest ih =>
    have hnew : ∀ name ∈ t.name?, name ∉ types.filterMap AbiType.name? := by
      intro name hname hbefore
      rw [List.filterMap_append, List.nodup_append] at h
      exact h.2.2 name hbefore name
        (List.mem_filterMap.2 ⟨t, List.mem_cons_self .., hname⟩) rfl
    have hsplit : types ++ t :: rest = (types ++ [t]) ++ rest := by
      rw [List.append_assoc, List.singleton_append]
    rw [hsplit] at h ⊢
    rw [List.foldlM_cons, visit_ofTypes s abi types t only hnew]
    exact ih (types ++ [t]) h

end Report

/-- An analysis ends with what there is to say about the types of the model, in order. -/
theorem analyze_eq (s : Settings) (m : Model) (only : Option String) :
    analyze s m only = .ok (Report.ofModel s m only) :=
  Report.foldlM_visit_ofTypes s m.name only [] m.types m.distinct

end AbiLayout
