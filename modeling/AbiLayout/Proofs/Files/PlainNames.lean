import AbiLayout.Proofs.Files.Walks

/-!
# Names in a directory

A name without slashes that is neither `.` nor `..` adds itself to the parts of a directory's path.
Main statement: in one directory, different such names lead to different places.
-/

namespace AbiLayout.Files

open Cpp (bind_eq_ok_iff)

/-- A name that stands for itself in any directory. -/
structure IsPlainName (name : String) : Prop where
  ne_empty : name ≠ ""
  no_slash : '/' ∉ name.toList
  ne_dot : name ≠ "."
  ne_up : name ≠ ".."

/-! ### The parts of a joined path -/

theorem splitSlash_ne_nil (a : List Char) : splitSlash a ≠ [] := by
  cases a with
  | nil => simp [splitSlash]
  | cons c rest =>
    rw [splitSlash]
    split
    · simp
    · split <;> simp

theorem splitSlash_append_slash (a b : List Char) :
    splitSlash (a ++ '/' :: b) = splitSlash a ++ splitSlash b := by
  induction a with
  | nil => simp [splitSlash]
  | cons c rest ih =>
    rw [List.cons_append, splitSlash, splitSlash, ih]
    split
    · rfl
    · obtain ⟨part, others, hrest⟩ := List.exists_cons_of_ne_nil (splitSlash_ne_nil rest)
      rw [hrest]
      rfl

theorem splitSlash_of_no_slash {a : List Char} (h : '/' ∉ a) : splitSlash a = [a] := by
  induction a with
  | nil => rfl
  | cons c rest ih =>
    rw [List.mem_cons, not_or] at h
    rw [splitSlash, if_neg (Ne.symm h.1), ih h.2]

theorem parts_append_slash (a b : String) : parts (a ++ "/" ++ b) = parts a ++ parts b := by
  have hsplit : (a ++ "/" ++ b).toList = a.toList ++ '/' :: b.toList := by simp
  rw [parts, hsplit, splitSlash_append_slash, List.filter_append, List.map_append, parts, parts]

theorem exists_of_endsInSlash {path : String} (h : endsInSlash path) : ∃ front, path = front ++ "/" := by
  obtain ⟨front, hfront⟩ := List.getLast?_eq_some_iff.mp (eq_of_beq h)
  exact ⟨String.ofList front, String.toList_inj.mp (by simp [hfront])⟩

namespace IsPlainName

variable {name : String} (h : IsPlainName name)

include h

theorem toList_ne_nil : name.toList ≠ [] := by simpa using h.ne_empty

theorem parts_eq : parts name = [name] := by
  rw [parts, splitSlash_of_no_slash h.no_slash]
  simp [h.toList_ne_nil]

theorem not_isAbsolute : isAbsolute name = false := by
  rw [isAbsolute, beq_eq_false_iff_ne]
  exact fun hhead => h.no_slash (List.mem_of_head? hhead)

theorem endsInSlash_append (front : String) : endsInSlash (front ++ name) = false := by
  have hlast : (front.toList ++ name.toList).getLast? = some (name.toList.getLast h.toList_ne_nil) := by
    rw [List.getLast?_append, List.getLast?_eq_some_getLast h.toList_ne_nil, Option.some_or]
  rw [endsInSlash, String.toList_append, hlast, beq_eq_false_iff_ne]
  exact fun heq => h.no_slash (Option.some.inj heq ▸ List.getLast_mem _)

theorem join_eq (dir : String) :
    dir = "" ∧ join dir name = name ∨
      dir ≠ "" ∧ ∃ between, join dir name = dir ++ between ++ name ∧
        parts (dir ++ between ++ name) = parts dir ++ [name] := by
  rw [join, h.not_isAbsolute, Bool.false_or]
  by_cases hempty : dir = ""
  · rw [if_pos (String.isEmpty_iff.mpr hempty)]
    exact .inl ⟨hempty, rfl⟩
  rw [if_neg (fun he => hempty (String.isEmpty_iff.mp he))]
  by_cases hslash : endsInSlash dir
  · obtain ⟨front, rfl⟩ := exists_of_endsInSlash hslash
    have hfront : parts (front ++ "/") = parts front := by
      rw [← String.append_empty (s := front ++ "/"), parts_append_slash]
      exact List.append_nil _
    refine .inr ⟨hempty, "", ?_, ?_⟩
    · rw [if_pos hslash, String.append_empty]
    · rw [String.append_empty, parts_append_slash, h.parts_eq, hfront]
  · refine .inr ⟨hempty, "/", by rw [if_neg hslash], ?_⟩
    rw [parts_append_slash, h.parts_eq]

theorem parts_join (dir : String) : parts (join dir name) = parts dir ++ [name] := by
  obtain ⟨rfl, hjoin⟩ | ⟨-, between, hjoin, hparts⟩ := h.join_eq dir
  · rw [hjoin, h.parts_eq]
    rfl
  · rw [hjoin, hparts]

theorem isAbsolute_join (dir : String) : isAbsolute (join dir name) = isAbsolute dir := by
  obtain ⟨rfl, hjoin⟩ | ⟨hne, between, hjoin, -⟩ := h.join_eq dir
  · rw [hjoin, h.not_isAbsolute]
    rfl
  · have hdir : dir.toList ≠ [] := by simpa using hne
    rw [hjoin, isAbsolute, isAbsolute, String.toList_append, String.toList_append, List.append_assoc,
      List.head?_append, List.head?_eq_some_head hdir, Option.some_or]

theorem endsInSlash_join (dir : String) : endsInSlash (join dir name) = false := by
  obtain ⟨rfl, hjoin⟩ | ⟨-, between, hjoin, -⟩ := h.join_eq dir
  · rw [hjoin, ← String.empty_append (s := name)]
    exact h.endsInSlash_append ""
  · rw [hjoin]
    exact h.endsInSlash_append (dir ++ between)

/-! ### The place of a joined path -/

theorem locate_join {d : Disk} {dir : String} {p : Place} (hp : d.locate (join dir name) = .ok p) :
    ∃ around, d.route [] (d.origin dir ++ parts dir) = .ok around ∧ p = around ++ [name] := by
  have horigin : d.origin (join dir name) = d.origin dir := by
    rw [Disk.origin, Disk.origin, h.isAbsolute_join]
  rw [Disk.locate_eq_route, Disk.partsFromRoot, horigin, h.parts_join, h.endsInSlash_join,
    if_neg (by simp), List.append_nil, ← List.append_assoc, Disk.route, List.foldlM_append,
    bind_eq_ok_iff] at hp
  obtain ⟨around, hroute, hp⟩ := hp
  refine ⟨around, hroute, ?_⟩
  rw [List.foldlM_cons, bind_eq_ok_iff] at hp
  obtain ⟨q, hq, hp⟩ := hp
  cases hp
  rw [Disk.follow_of_directory (Disk.directory_of_follow hq)] at hq
  split_ifs at hq with hdot hup hlong hat
  · exact absurd hdot h.ne_dot
  · exact absurd hup h.ne_up
  · exact (Except.ok.inj hq).symm

end IsPlainName

theorem places_ne_of_isPlainName {d : Disk} {dir a b : String} {p q : Place} (ha : IsPlainName a)
    (hb : IsPlainName b) (hab : a ≠ b) (hp : d.locate (join dir a) = .ok p)
    (hq : d.locate (join dir b) = .ok q) : p ≠ q := by
  obtain ⟨around, haround, rfl⟩ := ha.locate_join hp
  obtain ⟨around', haround', rfl⟩ := hb.locate_join hq
  obtain rfl : around = around' := Except.ok.inj (haround.symm.trans haround')
  intro h
  exact hab (List.singleton_inj.mp (List.append_cancel_left h))

end AbiLayout.Files
