import AbiLayout.Proofs.Documents.Yielding

/-!
# Data of any format

Trees of single values, sequences and mappings as such, and how a format presents them. Where structs are
expected is told by a layout of places. Main statement: a struct that is spelled by the entries of an
object in one format is spelled by the same entries in another.
-/

namespace AbiLayout.Document

variable {S S' : Type}

inductive Atom where
  | nothing
  | flag (b : Bool)
  | word (w : UInt64)
  | text (s : String)
deriving DecidableEq, Repr

inductive Datum where
  | atom (a : Atom)
  | sequence (items : List Datum)
  | mapping (entries : List (String × Datum))

def Script.scalar (c : Script S) : Atom → S
  | .nothing => c.nothing
  | .flag b => c.flag b
  | .word w => c.natural w.toNat
  | .text s => c.text s

namespace Datum

mutual

/-- The tree in a format. -/
def write (c : Script S) : Datum → Node S
  | .atom a => .scalar (c.scalar a)
  | .sequence items => .sequence (writeAll c items)
  | .mapping entries => .mapping (writeEntries c entries)

def writeAll (c : Script S) : List Datum → List (Node S)
  | [] => []
  | v :: rest => v.write c :: writeAll c rest

def writeEntries (c : Script S) : List (String × Datum) → List (Node S × Node S)
  | [] => []
  | (key, v) :: rest => (c.textNode key, v.write c) :: writeEntries c rest

end

mutual

/-- How deep sequences and mappings are nested. -/
def depth : Datum → Nat
  | .atom _ => 0
  | .sequence items => depthAll items + 1
  | .mapping entries => depthEntries entries + 1

def depthAll : List Datum → Nat
  | [] => 0
  | v :: rest => max v.depth (depthAll rest)

def depthEntries : List (String × Datum) → Nat
  | [] => 0
  | (_, v) :: rest => max v.depth (depthEntries rest)

end

section

variable (c : Script S)

mutual

theorem depth_write (v : Datum) : (v.write c).depth = v.depth := by
  cases v with
  | atom a => rfl
  | sequence items => rw [write, Node.depth, depth, depthAll_write items]
  | mapping entries => rw [write, Node.depth, depth, depthEntries_write entries]

theorem depthAll_write (items : List Datum) : Node.depthAll (writeAll c items) = depthAll items := by
  cases items with
  | nil => rfl
  | cons v rest => rw [writeAll, Node.depthAll, depthAll, depth_write v, depthAll_write rest]

theorem depthEntries_write (entries : List (String × Datum)) :
    Node.depthEntries (writeEntries c entries) = depthEntries entries := by
  match entries with
  | [] => rfl
  | (key, v) :: rest =>
    have hkey : (c.textNode key).depth = 0 := rfl
    rw [writeEntries, Node.depthEntries, depthEntries, hkey, Nat.zero_max, depth_write v,
      depthEntries_write rest]

end

mutual

theorem isDirect_write (v : Datum) : (v.write c).isDirect = true := by
  cases v with
  | atom a => rfl
  | sequence items => exact isDirectAll_write items
  | mapping entries => exact isDirectEntries_write entries

theorem isDirectAll_write (items : List Datum) : Node.isDirectAll (writeAll c items) = true := by
  cases items with
  | nil => rfl
  | cons v rest =>
    rw [writeAll, Node.isDirectAll, isDirect_write v, isDirectAll_write rest, Bool.and_self]

theorem isDirectEntries_write (entries : List (String × Datum)) :
    Node.isDirectEntries (writeEntries c entries) = true := by
  match entries with
  | [] => rfl
  | (key, v) :: rest =>
    have hkey : (c.textNode key).isDirect = true := rfl
    rw [writeEntries, Node.isDirectEntries, hkey, isDirect_write v, isDirectEntries_write rest]
    rfl

end

mutual

theorem intact_write (v : Datum) : (v.write c).intact = true := by
  cases v with
  | atom a => rfl
  | sequence items => exact intactAll_write items
  | mapping entries => exact intactEntries_write entries

theorem intactAll_write (items : List Datum) : Node.intactAll (writeAll c items) = true := by
  cases items with
  | nil => rfl
  | cons v rest =>
    rw [writeAll, Node.intactAll, intact_write v, intactAll_write rest, Bool.and_self]

theorem intactEntries_write (entries : List (String × Datum)) :
    Node.intactEntries (writeEntries c entries) = true := by
  match entries with
  | [] => rfl
  | (key, v) :: rest =>
    have hkey : (c.textNode key).intact = true := rfl
    rw [writeEntries, Node.intactEntries, hkey, intact_write v, intactEntries_write rest]
    rfl

end

end

end Datum

/-! ### Where structs are expected -/

/-- What is expected in a place, with the places below it. -/
inductive Layout (P : Type) where
  | struct (sh : Shape) (inner : sh.Field → P)
  | choice {T : Type} (ch : Choice T) (inner : T → P)
  | list (item : P)
  | single

namespace Layout

variable {P : Type}

def isStruct : Layout P → Bool
  | .struct _ _ => true
  | .choice _ _ | .list _ | .single => false

def item? : Layout P → Option P
  | .list item => some item
  | .struct _ _ | .choice _ _ | .single => none

/-- The place under a key, if the key means anything. -/
def under? (l : Layout P) (key : String) : Option P :=
  match l with
  | .struct sh inner => (sh.field? key).map inner
  | .choice ch inner => (ch.all.find? fun t => ch.key t == key).map inner
  | .list _ | .single => none

theorem under?_struct {sh : Shape} [sh.Lawful] (inner : sh.Field → P) (f : sh.Field) :
    (struct sh inner).under? (sh.key f) = some (inner f) := by
  rw [under?, Shape.field?_key, Option.map_some]

theorem under?_choice {T : Type} {ch : Choice T} [ch.Lawful] (inner : T → P) (t : T) :
    (choice ch inner).under? (ch.key t) = some (inner t) := by
  rw [under?, find?_key Choice.Lawful.nodup_keys (Choice.Lawful.mem_all t), Option.map_some]

end Layout

namespace Datum

variable {P : Type} (layout : P → Layout P)

mutual

/-- Whether structs are written as objects, not as sequences, wherever one is expected. -/
def structsAreObjects (p : P) : Datum → Bool
  | .atom _ => true
  | .sequence items =>
    !(layout p).isStruct && (layout p).item?.all fun q => structsAreObjectsAll q items
  | .mapping entries => structsAreObjectsEntries p entries

def structsAreObjectsAll (p : P) : List Datum → Bool
  | [] => true
  | v :: rest => structsAreObjects p v && structsAreObjectsAll p rest

def structsAreObjectsEntries (p : P) : List (String × Datum) → Bool
  | [] => true
  | (key, v) :: rest =>
    ((layout p).under? key).all (fun q => structsAreObjects q v) && structsAreObjectsEntries p rest

end

end Datum

/-! ### From format to format -/

/-- What is accepted for a tree as one script writes it is accepted for the same tree as the other
writes it, in a place where structs are objects. -/
def Carries {P : Type} (layout : P → Layout P) (c : Script S) (c' : Script S') (p : P)
    (accepts : Node S → Prop) (accepts' : Node S' → Prop) : Prop :=
  ∀ v : Datum, v.structsAreObjects layout p = true → accepts (v.write c) → accepts' (v.write c')

section

variable {P : Type} {layout : P → Layout P} {c : Script S} {c' : Script S'}
  (hc : Function.Injective c.scalar)

include hc

theorem Datum.eq_atom_of_write {v : Datum} {a : Atom} (h : v.write c = .scalar (c.scalar a)) :
    v = .atom a := by
  cases v with
  | atom b =>
    injection h with h
    rw [hc h]
  | sequence items => cases h
  | mapping entries => cases h

theorem eq_of_textNode {s t : String} (h : c.textNode s = c.textNode t) : s = t := by
  injection h with h
  have same : Atom.text s = Atom.text t := hc h
  injection same

theorem carries_atom (p : P) (a : Atom) :
    Carries layout c c' p (· = .scalar (c.scalar a)) (· = .scalar (c'.scalar a)) := by
  intro v _ hv
  rw [Datum.eq_atom_of_write hc hv]
  rfl

theorem carries_option (p : P) (o : Option String) :
    Carries layout c c' p (· = c.optionNode o) (· = c'.optionNode o) := by
  cases o with
  | none => exact carries_atom hc p .nothing
  | some s => exact carries_atom hc p (.text s)

variable (c') in
/-- What has been written as the alternative of a choice. -/
theorem exists_of_choiceNode {p : P} {T : Type} {ch : Choice T} [ch.Lawful] {inner : T → P}
    (hp : layout p = .choice ch inner) (t : T) {v : Datum} {content : Node S}
    (hobjects : v.structsAreObjects layout p = true)
    (hv : v.write c = c.choiceNode (ch.key t) content) :
    ∃ u : Datum, content = u.write c ∧ u.structsAreObjects layout (inner t) = true ∧
      v.write c' = c'.choiceNode (ch.key t) (u.write c') := by
  match v with
  | .mapping [(key, u)] =>
    injection hv with hv
    injection hv with hentry
    injection hentry with hkey hu
    obtain rfl := eq_of_textNode hc hkey
    rw [Datum.structsAreObjects, Datum.structsAreObjectsEntries, hp, Layout.under?_choice,
      Option.all_some, Bool.and_eq_true] at hobjects
    exact ⟨u, hu.symm, hobjects.1, rfl⟩
  | .atom _ => cases hv
  | .sequence _ => cases hv
  | .mapping [] => cases hv
  | .mapping (_ :: _ :: _) =>
    injection hv with hv
    injection hv with _ hrest
    cases hrest

/-- The content of an alternative is carried over with it. -/
theorem carries_choice {p : P} {T : Type} {ch : Choice T} [ch.Lawful] {inner : T → P}
    (hp : layout p = .choice ch inner) (t : T) {accepts : Node S → Prop} {accepts' : Node S' → Prop}
    (haccepts : Carries layout c c' (inner t) accepts accepts') {v : Datum}
    (hobjects : v.structsAreObjects layout p = true)
    (h : ∃ content, v.write c = c.choiceNode (ch.key t) content ∧ accepts content) :
    ∃ content, v.write c' = c'.choiceNode (ch.key t) content ∧ accepts' content := by
  obtain ⟨content, hv, hcontent⟩ := h
  obtain ⟨u, rfl, hu, hv'⟩ := exists_of_choiceNode c' hc hp t hobjects hv
  exact ⟨u.write c', hv', haccepts u hu hcontent⟩

omit hc in
theorem forall₂_writeAll {item : P} {α : Type} {as : List α} {accepts : α → Node S → Prop}
    {accepts' : α → Node S' → Prop}
    (h : ∀ a ∈ as, Carries layout c c' item (accepts a) (accepts' a)) {data : List Datum}
    (hobjects : Datum.structsAreObjectsAll layout item data = true)
    (hitems : List.Forall₂ accepts as (Datum.writeAll c data)) :
    List.Forall₂ accepts' as (Datum.writeAll c' data) := by
  induction data generalizing as with
  | nil =>
    cases hitems
    exact .nil
  | cons v rest ih =>
    rw [Datum.structsAreObjectsAll, Bool.and_eq_true] at hobjects
    obtain ⟨a, others, ha, hothers, rfl⟩ := List.forall₂_cons_right_iff.mp hitems
    rw [List.forall_mem_cons] at h
    exact .cons (h.1 v hobjects.1 ha) (ih h.2 hobjects.2 hothers)

omit hc in
theorem carries_lists {p item : P} (hp : layout p = .list item)
    {accepts : List (Node S) → Prop} {accepts' : List (Node S') → Prop}
    (h : ∀ data, Datum.structsAreObjectsAll layout item data = true →
      accepts (Datum.writeAll c data) → accepts' (Datum.writeAll c' data)) :
    Carries layout c c' p (Node.Lists accepts) (Node.Lists accepts') := by
  rintro v hobjects ⟨items, hv, hitems⟩
  match v with
  | .sequence data =>
    injection hv with hv
    subst hv
    rw [Datum.structsAreObjects, hp, Bool.and_eq_true] at hobjects
    exact ⟨_, rfl, h data hobjects.2 hitems⟩
  | .atom _ => cases hv
  | .mapping _ => cases hv

/-! ### Structs -/

variable {sh : Shape} [sh.Lawful] {inner : sh.Field → P} {w : Filling sh S} {w' : Filling sh S'}

theorem object_writeEntries {p : P} (hp : layout p = .struct sh inner)
    (haccepts : ∀ f, Carries layout c c' (inner f) (w.accepts f) (w'.accepts f))
    (homit : ∀ f, w.mayOmit f → w'.mayOmit f) {entries : List (String × Datum)}
    {missing : List sh.Field}
    (hobjects : Datum.structsAreObjectsEntries layout p entries = true)
    (h : w.Object c missing (Datum.writeEntries c entries)) :
    w'.Object c' missing (Datum.writeEntries c' entries) := by
  induction entries generalizing missing with
  | nil =>
    cases h with
    | done hmissing => exact .done fun f hf => homit f (hmissing f hf)
  | cons e rest ih =>
    obtain ⟨key, v⟩ := e
    rw [Datum.structsAreObjectsEntries, hp, Bool.and_eq_true] at hobjects
    generalize hentries : Datum.writeEntries c ((key, v) :: rest) = written at h
    cases h with
    | done _ => cases hentries
    | @field _ f n _ hf hn h =>
      injection hentries with hentry hrest
      injection hentry with hkey hv
      obtain rfl := eq_of_textNode hc hkey
      subst hrest hv
      rw [Layout.under?_struct, Option.all_some] at hobjects
      exact .field hf (haccepts f v hobjects.1 hn) (ih hobjects.2 h)
    | @foreign _ key' n _ hkey' hn h =>
      injection hentries with hentry hrest
      injection hentry with hkey hv
      obtain rfl := eq_of_textNode hc hkey
      subst hrest
      exact .foreign hkey' (v.intact_write c') (ih hobjects.2 h)

/-- A struct whose fields are carried over is carried over as an object. -/
theorem carries_spells {p : P} (hp : layout p = .struct sh inner)
    (haccepts : ∀ f, Carries layout c c' (inner f) (w.accepts f) (w'.accepts f))
    (homit : ∀ f, w.mayOmit f → w'.mayOmit f) :
    Carries layout c c' p (w.Spells c) (w'.Spells c') := by
  intro v hobjects h
  match v with
  | .mapping entries =>
    cases h with
    | object h => exact .object (object_writeEntries hc hp haccepts homit hobjects h)
  | .sequence items =>
    rw [Datum.structsAreObjects, hp] at hobjects
    cases hobjects
  | .atom _ => cases h

end

end AbiLayout.Document
