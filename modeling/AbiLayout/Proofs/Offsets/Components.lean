import AbiLayout.Proofs.Offsets.Distinct

/-!
# Components of the offsets

Both paths of a shared offset are written with dots, and their parts between the dots are names: those of
the alternatives on the way, and one of the member. Main statement: the parts of the generated path are those
of the canonical path as they are mangled, except that a range ends in its own name there and in its base here;
and a view adds one offset behind each range, for its length, and changes no other.
-/

namespace AbiLayout.Cpp

/-! ### The offsets of one place -/

namespace Place

section

variable {p : Place}

theorem mem_offsets_field {lengthMember : Option String} {o : SharedOffset} (ho : o ∈ p.offsets lengthMember)
    (hkind : o.kind = .field) : p.lengthName = none ∧ o = p.fieldOffset := by
  rcases mem_offsets_cases ho with h | ⟨lengthName, _, rfl | ⟨m, _, rfl⟩⟩
  · exact h
  · cases hkind
  · cases hkind

theorem mem_offsets_base {lengthMember : Option String} {o : SharedOffset} (ho : o ∈ p.offsets lengthMember)
    (hkind : o.kind = .rangeBase) : ∃ lengthName, p.lengthName = some lengthName ∧ o = p.baseOffset := by
  rcases mem_offsets_cases ho with ⟨_, rfl⟩ | ⟨lengthName, hlength, ho | ⟨m, _, rfl⟩⟩
  · cases hkind
  · exact ⟨lengthName, hlength, ho⟩
  · cases hkind

/-- The names of a place are what its canonical paths have between their dots. -/
theorem dotParts_canonical (name : String) (hnames : ∀ n ∈ p.names, Text.isIdentifier n = true)
    (hname : name ∈ p.names) : dotParts (dotted (p.around ++ [name])) = p.around ++ [name] := by
  refine dotParts_dotted (by simp) ?_
  intro part hpart
  have hin : part ∈ p.names := by
    rcases List.mem_append.1 hpart with h | h
    · exact List.mem_append_left _ h
    · rwa [List.mem_singleton.1 h]
  exact Text.dotless_of_isIdentifier (hnames part hin)

theorem dotParts_mangled (p : Place) :
    dotParts (dotted p.generatedParts) = p.around.map mangle ++ [mangle p.name] := by
  rw [p.dotParts_generated, generatedParts, List.map_append, List.map_singleton]

end

end Place

/-! ### The lengths of views -/

section

variable (m : String) (ps : List Place)

/-- Without the lengths of views the offsets are those of a view whose length member is not known. -/
theorem filter_not_rangeLength :
    (ps.flatMap (Place.offsets (some m))).filter (fun o => o.kind != .rangeLength) =
      ps.flatMap (Place.offsets none) := by
  induction ps with
  | nil => rfl
  | cons p rest ih =>
    rw [List.flatMap_cons, List.flatMap_cons, List.filter_append, ih]
    congr 1
    cases hlength : p.lengthName with
    | none =>
      rw [Place.offsets_of_simple hlength, Place.offsets_of_simple hlength]
      rfl
    | some name =>
      rw [Place.offsets_some_of_range hlength, Place.offsets_none_of_range hlength]
      rfl

theorem head?_offsets_not_rangeLength :
    ∀ o ∈ (ps.flatMap (Place.offsets (some m))).head?, o.kind ≠ .rangeLength := by
  intro o ho
  cases ps with
  | nil => cases ho
  | cons p rest =>
    rw [List.flatMap_cons] at ho
    cases hlength : p.lengthName with
    | none =>
      rw [Place.offsets_of_simple hlength, List.singleton_append, List.head?_cons] at ho
      cases ho
      intro hkind
      cases hkind
    | some name =>
      rw [Place.offsets_some_of_range hlength, List.cons_append, List.head?_cons] at ho
      cases ho
      intro hkind
      cases hkind

end

/-- Behind the base of a range stands its length, and then come the offsets of other places. -/
theorem length_follows_base {m : String} {ps : List Place} {before after : List SharedOffset}
    {o : SharedOffset} (hsplit : ps.flatMap (Place.offsets (some m)) = before ++ o :: after)
    (hkind : o.kind = .rangeBase) :
    ∃ p ∈ ps, ∃ lengthName, p.lengthName = some lengthName ∧ o = p.baseOffset ∧
      ∃ later : List Place,
        after = p.lengthOffset m lengthName :: later.flatMap (Place.offsets (some m)) := by
  induction ps generalizing before with
  | nil => simp at hsplit
  | cons p rest ih =>
    have hlater : ∀ front, rest.flatMap (Place.offsets (some m)) = front ++ o :: after →
        ∃ q ∈ p :: rest, ∃ lengthName, q.lengthName = some lengthName ∧ o = q.baseOffset ∧
          ∃ later : List Place,
            after = q.lengthOffset m lengthName :: later.flatMap (Place.offsets (some m)) := by
      intro front hfront
      obtain ⟨q, hq, h⟩ := ih hfront
      exact ⟨q, List.mem_cons_of_mem _ hq, h⟩
    rw [List.flatMap_cons] at hsplit
    -- the base is the first offset of `p`, or it is found behind all offsets of `p`
    cases hlength : p.lengthName with
    | none =>
      rw [Place.offsets_of_simple hlength, List.singleton_append] at hsplit
      cases before with
      | nil =>
        have hfield : p.fieldOffset = o := (List.cons.inj hsplit).1
        subst hfield
        cases hkind
      | cons first front => exact hlater front (List.cons.inj hsplit).2
    | some lengthName =>
      rw [Place.offsets_some_of_range hlength, List.cons_append, List.singleton_append] at hsplit
      cases before with
      | nil =>
        obtain ⟨hbase, hafter⟩ := List.cons.inj hsplit
        exact ⟨p, List.mem_cons_self .., lengthName, hlength, hbase.symm, rest, hafter.symm⟩
      | cons first front =>
        have hfront := (List.cons.inj hsplit).2
        cases front with
        | nil =>
          have hview : p.lengthOffset m lengthName = o := (List.cons.inj hfront).1
          subst hview
          cases hkind
        | cons second front => exact hlater front (List.cons.inj hfront).2

/-! ### The offsets of a member list -/

/-- The offset is that of the base of a range, which stands inside the alternatives `around`. -/
structure SharedOffset.IsBaseOf (ms : List Member) (around : List String)
    (name baseName lengthName : String) (o : SharedOffset) : Prop where
  stands : ∃ target constant, Stands ms around (.range name target constant baseName lengthName)
  generated : dotParts o.generated = around.map mangle ++ [mangle name]
  canonical : dotParts o.canonical = around ++ [baseName]

section

variable {ms : List Member} (hms : ∀ part ∈ membersNamedParts ms, part.isGood = true)

include hms

theorem isBaseOf_baseOffset {p : Place} (hp : p ∈ membersPlaces [] ms) {lengthName : String}
    (hlength : p.lengthName = some lengthName) :
    p.baseOffset.IsBaseOf ms p.around p.name p.baseName lengthName where
  stands := range_of_membersPlaces hp hlength
  generated := p.dotParts_mangled
  canonical := Place.dotParts_canonical p.baseName (fun _ hn => isIdentifier_of_membersPlaces hms hp hn)
    (by simp [Place.names])

theorem dotParts_fieldOffset {p : Place} (hp : p ∈ membersPlaces [] ms) (hlength : p.lengthName = none) :
    dotParts p.fieldOffset.generated = (dotParts p.fieldOffset.canonical).map mangle ∧
      ∃ type, Stands ms p.around (.simple p.name type) ∧
        dotParts p.fieldOffset.canonical = p.around ++ [p.name] := by
  obtain ⟨hname, type, hstands⟩ := simple_of_membersPlaces hp hlength
  have hcanonical : dotParts p.fieldOffset.canonical = p.around ++ [p.baseName] :=
    Place.dotParts_canonical p.baseName (fun _ hn => isIdentifier_of_membersPlaces hms hp hn)
      (by simp [Place.names])
  have hgenerated : dotParts p.fieldOffset.generated = p.around.map mangle ++ [mangle p.name] :=
    p.dotParts_mangled
  rw [hname] at hcanonical
  refine ⟨?_, type, hstands, hcanonical⟩
  rw [hcanonical, hgenerated, List.map_append, List.map_singleton]

end

/-- In a member list with good names the two paths of an offset agree part by part: those of a field up to
mangling, those of a range's base up to mangling and the last name; the parts are the names of the alternatives
around the member and one of its own. With a known length member the base of a range is followed by the offset
of its length, and by no second one; without these the offsets are those of a view whose length member is not
known. -/
theorem sharedOffsets_correspond (ms : List Member)
    (hms : ∀ part ∈ membersNamedParts ms, part.isGood = true) :
    (∀ lengthMember, ∀ o ∈ sharedOffsets ms lengthMember, o.kind = .field →
      dotParts o.generated = (dotParts o.canonical).map mangle ∧
        ∃ around name type, Stands ms around (.simple name type) ∧
          dotParts o.canonical = around ++ [name]) ∧
    (∀ lengthMember, ∀ o ∈ sharedOffsets ms lengthMember, o.kind = .rangeBase →
      ∃ around name baseName lengthName, o.IsBaseOf ms around name baseName lengthName) ∧
    (∀ m before o after, sharedOffsets ms (some m) = before ++ o :: after → o.kind = .rangeBase →
      ∃ around name baseName lengthName, o.IsBaseOf ms around name baseName lengthName ∧
        ∃ l rest, after = l :: rest ∧ l.kind = .rangeLength ∧ l.generated = o.generated ++ "." ++ m ∧
          dotParts l.canonical = around ++ [lengthName] ∧ ∀ next ∈ rest.head?, next.kind ≠ .rangeLength) ∧
    ∀ m, (sharedOffsets ms (some m)).filter (fun o => o.kind != .rangeLength) = sharedOffsets ms none := by
  have hplaces : ∀ lengthMember, sharedOffsets ms lengthMember =
      (membersPlaces [] ms).flatMap (Place.offsets lengthMember) :=
    fun lengthMember => membersOffsets_eq lengthMember [] ms
  refine ⟨?_, ?_, ?_, ?_⟩
  · intro lengthMember o ho hkind
    rw [hplaces, List.mem_flatMap] at ho
    obtain ⟨p, hp, ho⟩ := ho
    obtain ⟨hlength, rfl⟩ := Place.mem_offsets_field ho hkind
    obtain ⟨hparts, type, hstands, hcanonical⟩ := dotParts_fieldOffset hms hp hlength
    exact ⟨hparts, p.around, p.name, type, hstands, hcanonical⟩
  · intro lengthMember o ho hkind
    rw [hplaces, List.mem_flatMap] at ho
    obtain ⟨p, hp, ho⟩ := ho
    obtain ⟨lengthName, hlength, rfl⟩ := Place.mem_offsets_base ho hkind
    exact ⟨p.around, p.name, p.baseName, lengthName, isBaseOf_baseOffset hms hp hlength⟩
  · intro m before o after hsplit hkind
    rw [hplaces] at hsplit
    obtain ⟨p, hp, lengthName, hlength, rfl, later, hafter⟩ := length_follows_base hsplit hkind
    have hcanonical := Place.dotParts_canonical lengthName
      (fun _ hn => isIdentifier_of_membersPlaces hms hp hn) (by simp [Place.names, hlength])
    exact ⟨p.around, p.name, p.baseName, lengthName, isBaseOf_baseOffset hms hp hlength,
      p.lengthOffset m lengthName, _, hafter, rfl, rfl, hcanonical, head?_offsets_not_rangeLength m later⟩
  · intro m
    rw [hplaces, hplaces, filter_not_rangeLength]

/-- A field hoisted beside an alternative whose name is a reserved word, in which a range with canonical names
of its own stands beside an alternative of a further level. -/
def envelope : List Member :=
  [.variant
    [.mk none [.simple "errno" (.int .uint8)],
      .mk (some "private")
        [.range "class" (.userDefined "iovec") true "buf" "count",
          .variant [.mk (some "at") [.simple "pos" (.int .uint64)]]]]]

theorem sharedOffsets_correspond_envelope :
    (∀ part ∈ membersNamedParts envelope, part.isGood = true) ∧
    sharedOffsets envelope (some "view.size") =
      [⟨"error", "errno", .field⟩, ⟨"private_.class_", "private.buf", .rangeBase⟩,
        ⟨"private_.class_.view.size", "private.count", .rangeLength⟩,
        ⟨"private_.at.pos", "private.at.pos", .field⟩] ∧
    (∃ around name baseName lengthName, SharedOffset.IsBaseOf envelope around name baseName lengthName
        ⟨"private_.class_", "private.buf", .rangeBase⟩ ∧
      ∃ (l : SharedOffset) (rest : List SharedOffset),
        [⟨"private_.class_.view.size", "private.count", .rangeLength⟩,
          ⟨"private_.at.pos", "private.at.pos", .field⟩] = l :: rest ∧ l.kind = .rangeLength ∧
        l.generated = "private_.class_" ++ "." ++ "view.size" ∧
        dotParts l.canonical = around ++ [lengthName] ∧ ∀ next ∈ rest.head?, next.kind ≠ .rangeLength) ∧
    dotParts "private_.at.pos" = (dotParts "private.at.pos").map mangle ∧
    (sharedOffsets envelope (some "view.size")).filter (fun o => o.kind != .rangeLength) =
      sharedOffsets envelope none := by
  have hgood : ∀ part ∈ membersNamedParts envelope, part.isGood = true := by decide +kernel
  have hoffsets : sharedOffsets envelope (some "view.size") =
      [⟨"error", "errno", .field⟩, ⟨"private_.class_", "private.buf", .rangeBase⟩,
        ⟨"private_.class_.view.size", "private.count", .rangeLength⟩,
        ⟨"private_.at.pos", "private.at.pos", .field⟩] := by decide +kernel
  obtain ⟨hfield, -, hbase, hfilter⟩ := sharedOffsets_correspond envelope hgood
  have hpos : ⟨"private_.at.pos", "private.at.pos", .field⟩ ∈ sharedOffsets envelope (some "view.size") := by
    rw [hoffsets]
    simp
  exact ⟨hgood, hoffsets, hbase "view.size" [_] _ _ hoffsets rfl,
    (hfield (some "view.size") _ hpos rfl).1, hfilter "view.size"⟩

end AbiLayout.Cpp
