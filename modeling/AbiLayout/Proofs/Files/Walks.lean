import Mathlib.Tactic.ByContra
import Mathlib.Tactic.SplitIfs
import AbiLayout.Files.Disk
import AbiLayout.Proofs.Emission

/-!
# Where paths lead

A walk along a path asks only what stands at the places it comes by: nothing, a directory, or a file.
Writing a file changes that at one place, where no directory stood, so a path that led somewhere leads
there still. Main statement: what a path holds after a file was written.
-/

namespace AbiLayout.Files

open Cpp (bind_eq_ok_iff)

theorem lookup_assign_of_ne {name other : String} (h : other ≠ name) (e : Entry)
    (entries : List (String × Entry)) :
    (assign name e entries).lookup other = entries.lookup other := by
  have hother : (other == name) = false := by simpa using h
  induction entries with
  | nil => simp [assign, List.lookup_cons, hother]
  | cons x rest ih =>
    obtain ⟨key, f⟩ := x
    by_cases hkey : name = key
    · subst hkey
      simp [assign, List.lookup_cons, hother]
    · cases hb : other == key with
      | true => simp [assign, hkey, List.lookup_cons, hb]
      | false => simp [assign, hkey, List.lookup_cons, hb, ih]

namespace Entry

/-- The bytes of a file; a directory has none. -/
def bytes? : Entry → Option ByteArray
  | file bytes => some bytes
  | directory _ => none

/-- What stands at a place: nothing, a directory, or a file with its bytes. -/
def look (e : Entry) (p : Place) : Option (Option ByteArray) := (e.get? p).map bytes?

@[simp]
theorem entries_directory (inner : List (String × Entry)) : (directory inner).entries = inner := rfl

@[simp]
theorem look_nil (e : Entry) : e.look [] = some e.bytes? := rfl

theorem look_cons (e : Entry) (name : String) (rest : Place) :
    e.look (name :: rest) = (e.entries.lookup name).bind (·.look rest) := by
  rw [look, get?]
  cases e.entries.lookup name <;> rfl

@[simp]
theorem look_file_cons (bytes : ByteArray) (name : String) (rest : Place) :
    (file bytes).look (name :: rest) = none := rfl

theorem get?_append (e : Entry) (p q : Place) : e.get? (p ++ q) = (e.get? p).bind (·.get? q) := by
  induction p generalizing e with
  | nil => rfl
  | cons name rest ih =>
    rw [List.cons_append, get?, get?]
    cases e.entries.lookup name with
    | none => rfl
    | some inner => exact ih inner

theorem bytes?_of_lookup {e inner : Entry} {name : String} (h : e.entries.lookup name = some inner) :
    e.bytes? = none := by
  cases e with
  | file _ => cases h
  | directory _ => rfl

/-- A file put into a directory, at a name that no directory has, is all that changes. -/
theorem look_put_file {e : Entry} {around : Place} {last : String} (bytes : ByteArray)
    (hdir : e.look around = some none) (hlast : e.look (around ++ [last]) ≠ some none) (q : Place) :
    (put (.file bytes) e (around ++ [last])).look q =
      if q = around ++ [last] then some (some bytes) else e.look q := by
  induction around generalizing e q with
  | nil =>
    cases q with
    | nil => exact hdir.symm
    | cons name rest =>
      rw [List.nil_append, put, put, look_cons, look_cons, entries_directory]
      by_cases hname : name = last
      · subst hname
        rw [lookup_assign, Option.bind_some]
        cases rest with
        | nil => rw [if_pos rfl, look_nil, bytes?]
        | cons next rest =>
          rw [if_neg (by simp), look_file_cons]
          -- Nothing is below what stood there: it was no directory.
          cases hat : e.entries.lookup name with
          | none => rfl
          | some inner =>
            cases inner with
            | file _ => rfl
            | directory _ =>
              rw [List.nil_append, look_cons, hat] at hlast
              exact absurd rfl hlast
      · rw [lookup_assign_of_ne hname, if_neg (by simp [hname])]
  | cons first around ih =>
    rw [look_cons] at hdir
    obtain ⟨inner, hat, hinner⟩ := Option.bind_eq_some_iff.mp hdir
    rw [List.cons_append, look_cons, hat, Option.bind_some] at hlast
    rw [List.cons_append, put, hat, Option.getD_some]
    cases q with
    | nil => rw [if_neg (by simp), look_nil, look_nil, bytes?_of_lookup hat, bytes?]
    | cons name rest =>
      rw [look_cons, look_cons, entries_directory]
      by_cases hname : name = first
      · subst hname
        rw [lookup_assign, Option.bind_some, ih hinner hlast, hat, Option.bind_some]
        simp
      · rw [lookup_assign_of_ne hname, if_neg (by simp [hname])]

end Entry

namespace Disk

def look (d : Disk) (p : Place) : Option (Option ByteArray) := d.root.look p

/-! ### Walks as places -/

/-- Whether a directory stands at a place. -/
def hasDirectory (d : Disk) (p : Place) : Bool := (d.look p).any Option.isNone

theorem hasDirectory_iff {d : Disk} {p : Place} : d.hasDirectory p ↔ d.look p = some none := by
  simp [hasDirectory, Option.any_eq_true]

/-- The place that one part of a path leads to. -/
def follow (d : Disk) (p : Place) (part : String) : Except FileError Place :=
  if ¬ d.hasDirectory p then .error .notDirectory
  else if part = "." then .ok p
  else if part = ".." then .ok p.dropLast
  else if isLongName part then .error .nameTooLong
  else if (d.look (p ++ [part])).isSome then .ok (p ++ [part])
  else .error .notFound

/-- The place that parts of a path lead to, from a place on. -/
def route (d : Disk) (p : Place) (parts : List String) : Except FileError Place := parts.foldlM d.follow p

theorem follow_of_directory {d : Disk} {p : Place} (hdir : d.look p = some none) (part : String) :
    d.follow p part =
      if part = "." then .ok p
      else if part = ".." then .ok p.dropLast
      else if isLongName part then .error .nameTooLong
      else if (d.look (p ++ [part])).isSome then .ok (p ++ [part])
      else .error .notFound :=
  if_neg (Classical.not_not.mpr (hasDirectory_iff.2 hdir))

theorem directory_of_follow {d : Disk} {p q : Place} {part : String} (h : d.follow p part = .ok q) :
    d.look p = some none := by
  by_contra hdir
  rw [follow, if_pos (fun hhas => hdir (hasDirectory_iff.1 hhas))] at h
  cases h

theorem route_name {d : Disk} {p : Place} {name : String} (hdir : d.look p = some none)
    (hdot : name ≠ ".") (hup : name ≠ "..") (hshort : ¬ isLongName name)
    (hat : (d.look (p ++ [name])).isSome) : d.route p [name] = .ok (p ++ [name]) := by
  rw [route, List.foldlM_cons, follow_of_directory hdir, if_neg hdot, if_neg hup, if_neg hshort,
    if_pos hat]
  rfl

/-- Each entry of a trail is found under its name in the one before. -/
def IsTrail (d : Disk) : Trail → Prop
  | [] => True
  | (name, e) :: t => (d.here t).entries.lookup name = some e ∧ d.IsTrail t

theorem IsTrail.tail {d : Disk} {t : Trail} (h : d.IsTrail t) : d.IsTrail t.tail := by
  cases t with
  | nil => trivial
  | cons _ _ => exact h.2

theorem place_cons (name : String) (e : Entry) (t : Trail) :
    place ((name, e) :: t) = place t ++ [name] := by
  simp [place]

theorem place_tail (t : Trail) : place t.tail = (place t).dropLast := by
  cases t with
  | nil => rfl
  | cons x t => rw [List.tail_cons, place_cons, List.dropLast_concat]

theorem get?_place {d : Disk} {t : Trail} (h : d.IsTrail t) :
    d.root.get? (place t) = some (d.here t) := by
  induction t with
  | nil => rfl
  | cons x t ih =>
    obtain ⟨name, e⟩ := x
    rw [place_cons, Entry.get?_append, ih h.2, Option.bind_some, Entry.get?, h.1, here]
    rfl

theorem look_place {d : Disk} {t : Trail} (h : d.IsTrail t) :
    d.look (place t) = some (d.here t).bytes? := by
  rw [look, Entry.look, get?_place h, Option.map_some]

theorem look_place_append {d : Disk} {t : Trail} (h : d.IsTrail t) (name : String) :
    d.look (place t ++ [name]) = ((d.here t).entries.lookup name).map Entry.bytes? := by
  rw [look, Entry.look, Entry.get?_append, get?_place h, Option.bind_some, Entry.get?]
  cases (d.here t).entries.lookup name <;> rfl

/-- A walk keeps to the tree, and it gets as far as what stands at the places allows. -/
theorem route_place {d : Disk} {t : Trail} (h : d.IsTrail t) (parts : List String) :
    (∃ t', d.walkFrom t parts = .ok t' ∧ d.IsTrail t' ∧ d.route (place t) parts = .ok (place t')) ∨
      ∃ e, d.walkFrom t parts = .error e ∧ d.route (place t) parts = .error e := by
  induction parts generalizing t with
  | nil => exact .inl ⟨t, rfl, h, rfl⟩
  | cons part rest ih =>
    rw [walkFrom, route, List.foldlM_cons, follow, hasDirectory, look_place h, look_place_append h]
    cases hhere : d.here t with
    | file bytes => exact .inr ⟨.notDirectory, rfl, rfl⟩
    | directory inner =>
      rw [if_neg (by simp [Entry.bytes?]), Entry.entries_directory]
      by_cases hdot : part = "."
      · simp only [if_pos hdot]
        exact ih h
      by_cases hup : part = ".."
      · simp only [if_neg hdot, if_pos hup, ← place_tail]
        exact ih h.tail
      simp only [if_neg hdot, if_neg hup, find?]
      by_cases hlong : isLongName part
      · simp only [if_pos hlong]
        exact .inr ⟨.nameTooLong, rfl, rfl⟩
      simp only [if_neg hlong]
      cases hat : inner.lookup part with
      | none => exact .inr ⟨.notFound, rfl, rfl⟩
      | some e =>
        rw [← place_cons part e]
        exact ih (t := (part, e) :: t) ⟨by rw [hhere]; exact hat, h⟩

/-- The parts of a path from the root on, where a path that means a directory ends in `.`. -/
def partsFromRoot (d : Disk) (path : String) : List String :=
  d.origin path ++ parts path ++ if endsInSlash path then ["."] else []

/-- The place that a path leads to. -/
def locate (d : Disk) (path : String) : Except FileError Place :=
  (d.walk (d.partsFromRoot path)).map place

theorem locate_eq_route (d : Disk) (path : String) :
    d.locate path = d.route [] (d.partsFromRoot path) := by
  obtain ⟨t, hwalk, -, hroute⟩ | ⟨e, hwalk, hroute⟩ :=
    route_place (d := d) (t := []) trivial (d.partsFromRoot path)
  · exact (congrArg (Except.map place) hwalk).trans hroute.symm
  · exact (congrArg (Except.map place) hwalk).trans hroute.symm

theorem exists_walk_of_route {d : Disk} {parts : List String} {p : Place}
    (h : d.route [] parts = .ok p) : ∃ t, d.walk parts = .ok t ∧ d.IsTrail t ∧ place t = p := by
  obtain ⟨t, hwalk, htrail, hroute⟩ | ⟨e, -, hroute⟩ :=
    route_place (d := d) (t := []) trivial parts
  · exact ⟨t, hwalk, htrail, Except.ok.inj (hroute.symm.trans h)⟩
  · exact absurd (hroute.symm.trans h) (by simp)

theorem route_of_walk {d : Disk} {parts : List String} {t : Trail} (h : d.walk parts = .ok t) :
    d.IsTrail t ∧ d.route [] parts = .ok (place t) := by
  obtain ⟨t', hwalk, htrail, hroute⟩ | ⟨e, hwalk, -⟩ :=
    route_place (d := d) (t := []) trivial parts
  · obtain rfl : t' = t := Except.ok.inj (hwalk.symm.trans h)
    exact ⟨htrail, hroute⟩
  · exact absurd (hwalk.symm.trans h) (by simp)

/-! ### What a change keeps -/

/-- Whatever stands in one tree stands in the other, and as a directory where it is one. -/
structure Keeps (d d' : Disk) : Prop where
  directory (p : Place) : d.look p = some none → d'.look p = some none
  present (p : Place) : (d.look p).isSome → (d'.look p).isSome

theorem Keeps.follow {d d' : Disk} (h : Keeps d d') {p q : Place} {part : String}
    (hq : d.follow p part = .ok q) : d'.follow p part = .ok q := by
  have hdir := directory_of_follow hq
  rw [follow_of_directory hdir] at hq
  rw [follow_of_directory (h.directory p hdir)]
  by_cases hat : (d.look (p ++ [part])).isSome
  · rw [if_pos hat] at hq
    rw [if_pos (h.present _ hat), hq]
  · rw [if_neg hat] at hq
    split_ifs at hq with hdot hup hlong
    · rw [if_pos hdot, hq]
    · rw [if_neg hdot, if_pos hup, hq]

theorem Keeps.route {d d' : Disk} (h : Keeps d d') {p q : Place} {parts : List String}
    (hq : d.route p parts = .ok q) : d'.route p parts = .ok q := by
  induction parts generalizing p with
  | nil => exact hq
  | cons part rest ih =>
    rw [Disk.route, List.foldlM_cons, bind_eq_ok_iff] at hq ⊢
    obtain ⟨next, hnext, hq⟩ := hq
    exact ⟨next, h.follow hnext, ih hq⟩

theorem route_append {d : Disk} {p q : Place} {parts : List String}
    (h : d.route p parts = .ok q) (rest : List String) :
    d.route p (parts ++ rest) = d.route q rest := by
  rw [route, List.foldlM_append]
  exact congrArg (· >>= fun p => d.route p rest) h

/-! ### Reading -/

/-- A path that can be asked for at all. -/
def isUsable (path : String) : Bool := !holdsZero path && !isLongPath path && !path.isEmpty

theorem isUsable_iff (path : String) :
    isUsable path ↔ ¬ holdsZero path ∧ ¬ isLongPath path ∧ ¬ path.isEmpty := by
  simp [isUsable, and_assoc]

theorem readBytes_of_isUsable {path : String} (h : isUsable path) (d : Disk) :
    d.readBytes path = (d.walk (d.partsFromRoot path)).bind fun t =>
      (d.here t).bytes?.elim (.error .isDirectory) .ok := by
  obtain ⟨hzero, hlong, hempty⟩ := (isUsable_iff path).mp h
  rw [readBytes, if_neg hzero, if_neg hlong, if_neg hempty, ← partsFromRoot]
  congr
  funext t
  cases d.here t <;> rfl

theorem isUsable_of_readBytes {d : Disk} {path : String} {bytes : ByteArray}
    (h : d.readBytes path = .ok bytes) : isUsable path := by
  rw [readBytes] at h
  split_ifs at h with hzero hlong hempty
  all_goals exact (isUsable_iff path).mpr ⟨hzero, hlong, hempty⟩

/-- A path can be read if it leads to a file. -/
theorem readBytes_eq_ok_iff (d : Disk) (path : String) (bytes : ByteArray) :
    d.readBytes path = .ok bytes ↔
      isUsable path ∧ ∃ p, d.locate path = .ok p ∧ d.look p = some (some bytes) := by
  constructor
  · intro h
    have hpath := isUsable_of_readBytes h
    rw [readBytes_of_isUsable hpath] at h
    cases hwalk : d.walk (d.partsFromRoot path) with
    | error e => simp [hwalk, Except.bind] at h
    | ok t =>
      refine ⟨hpath, place t, by rw [locate, hwalk, Except.map], ?_⟩
      rw [look_place (route_of_walk hwalk).1, Option.some.injEq]
      cases hbytes : (d.here t).bytes? with
      | none => simp [hwalk, Except.bind, hbytes] at h
      | some found => simpa [hwalk, Except.bind, hbytes] using h
  · rintro ⟨hpath, p, hlocate, hlook⟩
    obtain ⟨t, hwalk, htrail, rfl⟩ :=
      exists_walk_of_route ((locate_eq_route d path).symm.trans hlocate)
    have hbytes : (d.here t).bytes? = some bytes :=
      Option.some.inj ((look_place htrail).symm.trans hlook)
    rw [readBytes_of_isUsable hpath, hwalk, Except.bind, hbytes, Option.elim_some]

/-! ### Writing -/

/-- A file has been written: the path leads to it, and nothing else is different. -/
structure Written (d : Disk) (path : String) (bytes : ByteArray) (d' : Disk) (p : Place) : Prop where
  usable : isUsable path
  start : d'.start = d.start
  locate : d'.locate path = .ok p
  before : d.look p ≠ some none
  look (q : Place) : d'.look q = if q = p then some (some bytes) else d.look q

theorem keeps_of_look {d d' : Disk} {p : Place} {bytes : ByteArray} (hbefore : d.look p ≠ some none)
    (hlook : ∀ q, d'.look q = if q = p then some (some bytes) else d.look q) : Keeps d d' where
  directory q hq := by
    have hne : q ≠ p := fun hqp => hbefore (hqp ▸ hq)
    rw [hlook, if_neg hne, hq]
  present q hq := by
    rw [hlook]
    split
    · rfl
    · exact hq

theorem route_of_enter {d : Disk} {parts : List String} {around : Place}
    {inner : List (String × Entry)} (h : d.enter parts = .ok (around, inner)) :
    d.route [] parts = .ok around ∧ d.look around = some none ∧
      ∀ name, d.look (around ++ [name]) = (inner.lookup name).map Entry.bytes? := by
  obtain ⟨t, hwalk, h⟩ := (bind_eq_ok_iff _ _ _).mp h
  obtain ⟨htrail, hroute⟩ := route_of_walk hwalk
  split at h
  · rename_i entries hhere
    cases h
    refine ⟨hroute, ?_, fun name => ?_⟩
    · rw [look_place htrail, hhere, Entry.bytes?]
    · rw [look_place_append htrail, hhere, Entry.entries_directory]
  · cases h

/-- Where and how a file can be written: its directory is there, and no directory has its name. -/
theorem writeBytes_eq_ok {d d' : Disk} {path : String} {bytes : ByteArray}
    (h : d.writeBytes path bytes = .ok d') :
    isUsable path ∧ ¬ endsInSlash path ∧ ∃ outer last around,
      parts path = outer ++ [last] ∧ last ≠ "." ∧ last ≠ ".." ∧ ¬ isLongName last ∧
      d.route [] (d.origin path ++ outer) = .ok around ∧ d.look around = some none ∧
      d.look (around ++ [last]) ≠ some none ∧ d' = d.put (around ++ [last]) (.file bytes) := by
  rw [writeBytes] at h
  split at h
  · cases h
  rename_i hzero
  split at h
  · cases h
  rename_i hlong
  split at h
  · split at h <;> cases h
  rename_i last outer hparts
  obtain ⟨⟨around, inner⟩, henter, h⟩ := (bind_eq_ok_iff _ _ _).mp h
  obtain ⟨hroute, hdir, hlook⟩ := route_of_enter henter
  dsimp only at h
  split at h
  · cases h
  rename_i hname
  simp only [Bool.or_eq_true, decide_eq_true_eq, not_or] at hname
  obtain ⟨⟨hslash, hdot⟩, hup⟩ := hname
  obtain ⟨found, hfound, h⟩ := (bind_eq_ok_iff _ _ _).mp h
  rw [find?] at hfound
  split at hfound
  · cases hfound
  rename_i hshort
  obtain rfl : inner.lookup last = found := Except.ok.inj hfound
  have hparts' : parts path = outer.reverse ++ [last] := by
    rw [← List.reverse_reverse (parts path), hparts, List.reverse_cons]
  have hempty : ¬ path.isEmpty := fun hempty => by
    rw [String.isEmpty_iff.mp hempty] at hparts
    cases hparts
  refine ⟨(isUsable_iff path).mpr ⟨hzero, hlong, hempty⟩, hslash, outer.reverse, last, around,
    hparts', hdot, hup, hshort, hroute, hdir, ?_⟩
  rw [hlook]
  split at h
  · cases h
  · rename_i hnot
    refine ⟨fun hat => ?_, (Except.ok.inj h).symm⟩
    obtain ⟨e, he, hbytes⟩ := Option.map_eq_some_iff.mp hat
    cases e with
    | file _ => cases hbytes
    | directory entries => exact hnot entries he

theorem written_of_writeBytes {d d' : Disk} {path : String} {bytes : ByteArray}
    (h : d.writeBytes path bytes = .ok d') : ∃ p, Written d path bytes d' p := by
  obtain ⟨hpath, hslash, outer, last, around, hparts, hdot, hup, hshort, hroute, hdir, hlast, rfl⟩ :=
    writeBytes_eq_ok h
  have hlook : ∀ q, (d.put (around ++ [last]) (.file bytes)).look q =
      if q = around ++ [last] then some (some bytes) else d.look q :=
    Entry.look_put_file bytes hdir hlast
  have hkeeps := keeps_of_look hlast hlook
  refine ⟨around ++ [last], hpath, rfl, ?_, hlast, hlook⟩
  have hat : (d.put (around ++ [last]) (.file bytes)).look (around ++ [last]) = some (some bytes) := by
    rw [hlook, if_pos rfl]
  have horigin : (d.put (around ++ [last]) (.file bytes)).origin path = d.origin path := rfl
  rw [locate_eq_route, partsFromRoot, hparts, if_neg hslash, List.append_nil, ← List.append_assoc,
    horigin, route_append (hkeeps.route hroute)]
  exact route_name (hkeeps.directory _ hdir) hdot hup hshort (by rw [hat]; rfl)

/-- What a path holds after a file was written through it. -/
theorem readBytes_writeBytes {d d' : Disk} {path : String} {bytes : ByteArray}
    (h : d.writeBytes path bytes = .ok d') : d'.readBytes path = .ok bytes := by
  obtain ⟨p, hw⟩ := written_of_writeBytes h
  exact (readBytes_eq_ok_iff d' path bytes).mpr
    ⟨hw.usable, p, hw.locate, by rw [hw.look, if_pos rfl]⟩

/-- What a path to a file holds after a file was written through any path. -/
theorem readBytes_writeBytes_of_readBytes {d d' : Disk} {path other : String} {bytes old : ByteArray}
    (h : d.writeBytes path bytes = .ok d') (hold : d.readBytes other = .ok old) :
    ∃ p q, d'.locate path = .ok p ∧ d'.locate other = .ok q ∧
      d'.readBytes other = .ok (if q = p then bytes else old) := by
  obtain ⟨p, hw⟩ := written_of_writeBytes h
  obtain ⟨hother, q, hq, hlook⟩ := (readBytes_eq_ok_iff d other old).mp hold
  have hq' : d'.locate other = .ok q := by
    rw [locate_eq_route] at hq ⊢
    rw [partsFromRoot, origin, hw.start]
    exact (keeps_of_look hw.before hw.look).route hq
  refine ⟨p, q, hw.locate, hq', (readBytes_eq_ok_iff d' other _).mpr ⟨hother, q, hq', ?_⟩⟩
  rw [hw.look, hlook]
  split <;> rfl

end Disk

end AbiLayout.Files
