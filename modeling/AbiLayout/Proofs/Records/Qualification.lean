import AbiLayout.Proofs.Declarators.LeafName
import AbiLayout.Proofs.Records.Agreement
import AbiLayout.Proofs.Records.Scopes
import Mathlib.Data.List.Forall2

/-!
# Names of types inside records

Inside a record an identifier may mean a member, and the type of that name is then reached through the
namespace. Main statement: in a record that is defined, the field of every site is declared as outside
of all records, except that the name of a type goes through the namespace exactly where a scope around
the field declares its identifier.
-/

namespace AbiLayout.Cpp

/-! ### Declarations of the fields -/

namespace Outline

mutual

/-- The declarations of the fields, in the order of their lines. -/
def texts : Outline → List (Except RenderError String)
  | .field _ text => [text]
  | .union body => textsAll body
  | .nested _ _ body => textsAll body

def textsAll : List Outline → List (Except RenderError String)
  | [] => []
  | o :: rest => texts o ++ textsAll rest

end

theorem textsAll_append (a b : List Outline) : textsAll (a ++ b) = textsAll a ++ textsAll b := by
  induction a with
  | nil => rfl
  | cons o rest ih => rw [List.cons_append, textsAll, textsAll, ih, List.append_assoc]

end Outline

namespace Body

mutual

def fields : Body → List Field
  | field f => [f]
  | union body => fieldsAll body
  | nested _ body => fieldsAll body

def fieldsAll : List Body → List Field
  | [] => []
  | b :: rest => fields b ++ fieldsAll rest

end

mutual

theorem texts_outline (b : Body) : b.outline.texts = b.fields.map fun f => .ok f.text := by
  cases b with
  | field f => rfl
  | union body => rw [outline, Outline.texts, textsAll_outlineAll body, fields]
  | nested name body => rw [outline, Outline.texts, textsAll_outlineAll body, fields]

theorem textsAll_outlineAll (bs : List Body) :
    Outline.textsAll (outlineAll bs) = (fieldsAll bs).map fun f => .ok f.text := by
  cases bs with
  | nil => rfl
  | cons b rest =>
    rw [outlineAll, Outline.textsAll, texts_outline b, textsAll_outlineAll rest, fieldsAll,
      List.map_append]

end

end Body

/-! ### The names that a site sees -/

def visibleNames (scopes : List (List Member)) : List String := scopes.flatMap declaredNames

theorem Site.visible_iff (p : Site) (x : String) :
    p.Visible x ↔ (visibleNames p.scopes).contains x = true := by
  simp only [Site.Visible, visibleNames, List.contains_eq_mem, decide_eq_true_eq, List.mem_flatMap,
    mem_declaredNames_iff]

def Site.declaration (s : RecordSettings) (p : Site) : Except RenderError String :=
  p.field.declaration s.rangeViewType (insideRecord s.space (visibleNames p.scopes))

section

variable (s : RecordSettings)

mutual

theorem texts_outlineMember (scope : String) (scopes : List (List Member)) (m : Member) :
    (outlineMember s scope (visibleNames scopes) m).texts =
      (memberSites scopes m).map (Site.declaration s) := by
  cases m with
  | simple name type => rfl
  | variant alternatives =>
    rw [outlineMember, Outline.texts, memberSites]
    exact textsAll_outlineAlternatives scope scopes alternatives
  | range name target constant baseName lengthName => rfl

theorem textsAll_outlineMembers (scope : String) (scopes : List (List Member)) (ms : List Member) :
    Outline.textsAll (outlineMembers s scope (visibleNames scopes) ms) =
      (membersSites scopes ms).map (Site.declaration s) := by
  cases ms with
  | nil => rfl
  | cons m rest =>
    rw [outlineMembers, Outline.textsAll, membersSites, List.map_append,
      texts_outlineMember scope scopes m, textsAll_outlineMembers scope scopes rest]

theorem textsAll_outlineAlternative (scope : String) (scopes : List (List Member))
    (a : Alternative) :
    Outline.textsAll (outlineAlternative s scope (visibleNames scopes) a) =
      (alternativeSites scopes a).map (Site.declaration s) := by
  match a with
  | .mk none members =>
    rw [outlineAlternative, alternativeSites]
    exact textsAll_outlineMembers scope scopes members
  | .mk (some name) members =>
    -- what the alternative declares is put in front of what is visible around it
    have hvisible : declaredNames members ++ visibleNames scopes = visibleNames (members :: scopes) :=
      rfl
    rw [outlineAlternative, alternativeSites, Outline.textsAll, Outline.texts, Outline.textsAll,
      List.append_nil, hvisible]
    exact textsAll_outlineMembers _ (members :: scopes) members

theorem textsAll_outlineAlternatives (scope : String) (scopes : List (List Member))
    (as : List Alternative) :
    Outline.textsAll (outlineAlternatives s scope (visibleNames scopes) as) =
      (alternativesSites scopes as).map (Site.declaration s) := by
  cases as with
  | nil => rfl
  | cons a rest =>
    rw [outlineAlternatives, Outline.textsAll_append, alternativesSites, List.map_append,
      textsAll_outlineAlternative scope scopes a, textsAll_outlineAlternatives scope scopes rest]

end

theorem textsAll_outlineRecord (r : Record) :
    Outline.textsAll (outlineRecord s r) = (Record.sites r).map (Site.declaration s) := by
  have hvisible : declaredNames r.members = visibleNames [r.members] := by
    simp only [visibleNames, List.flatMap_cons, List.flatMap_nil, List.append_nil]
  rw [outlineRecord, hvisible]
  exact textsAll_outlineMembers s _ [r.members] r.members

end

/-! ### Qualified names -/

theorem FieldMember.declaration_generatedWith (viewType : String) (m : FieldMember)
    (f : String → String) {text : String}
    (h : m.declaration viewType (generatedWith f) = .ok text) :
    Framed m.type.leafName? fun g => m.declaration viewType (generatedWith g) := by
  cases m with
  | simple name type => exact spellThrough_generatedWith f type _ h
  | range name target constant =>
    obtain ⟨inner, hi, _⟩ := (bind_eq_ok_iff _ _ _).1 h
    refine (spell_generatedWith f target hi).around (viewType ++ "<")
      ((if constant then " const" else "") ++ "> " ++ mangle name) fun g text hg => ?_
    rw [FieldMember.declaration, hg]
    simp [rangeDeclaration, bind, Except.bind, pure, Except.pure, String.append_assoc]

/-- The text of a field is its declaration outside of all records, where the name of a type is
reached through the namespace if its identifier is visible at the site, and left as it is if not. -/
def Site.Qualifies (s : RecordSettings) (p : Site) (text : String) : Prop :=
  match p.field.type.leafName? with
  | none => p.field.declaration s.rangeViewType generated = .ok text
  | some name => ∃ before after,
    (∀ g, p.field.declaration s.rangeViewType (generatedWith g) = .ok (before ++ g name ++ after)) ∧
    p.field.declaration s.rangeViewType generated = .ok (before ++ mangle name ++ after) ∧
    (p.Visible (mangle name) → text = before ++ (s.space ++ "::" ++ mangle name) ++ after) ∧
    (¬ p.Visible (mangle name) → text = before ++ mangle name ++ after)

theorem Site.qualifies_of_declaration {s : RecordSettings} {p : Site} {text : String}
    (h : p.declaration s = .ok text) : p.Qualifies s text := by
  rw [Site.declaration, insideRecord_eq] at h
  obtain ⟨before, after, hframe⟩ := p.field.declaration_generatedWith s.rangeViewType _ h
  have htext := Except.ok.inj (h.symm.trans (hframe _))
  unfold Site.Qualifies
  cases hname : p.field.type.leafName? with
  | none =>
    rw [hname] at hframe htext
    rw [htext]
    exact hframe mangle
  | some name =>
    rw [hname] at hframe htext
    refine ⟨before, after, hframe, hframe mangle, fun hv => ?_, fun hv => ?_⟩
    · rw [Site.visible_iff] at hv
      rw [htext, leafText, Option.elim_some, if_pos hv]
    · rw [Site.visible_iff] at hv
      rw [htext, leafText, Option.elim_some, if_neg hv]

/-- A record that is defined has one field for each of its sites, in the same order, and the name of
a type in it goes through the namespace exactly where its identifier is visible at the site. -/
theorem defineRecord_qualifies_visible_names (s : RecordSettings) (lead : String) (r : Record) (n : Nat)
    (h : (defineRecord s lead r).result = .ok n) :
    ∃ body, (defineRecord s lead r).lines = (Record.definition s lead r body).lines ∧
      List.Forall₂ (fun p f => Site.Qualifies s p f.text) (Record.sites r) (Body.fieldsAll body) := by
  obtain ⟨hscope, body, hbody⟩ := exists_body_of_defineRecord h
  refine ⟨body, by rw [defineRecord_of_body s lead r body hscope hbody], ?_⟩
  -- the outline holds the declarations of the sites, and those of a body, which are no faults
  have htexts : (Record.sites r).map (Site.declaration s) =
      (Body.fieldsAll body).map fun f => .ok f.text := by
    rw [← textsAll_outlineRecord, ← hbody, Body.textsAll_outlineAll]
  have hall : List.Forall₂ (fun p (f : Field) => p.declaration s = .ok f.text) (Record.sites r)
      (Body.fieldsAll body) := by
    rw [← List.forall₂_eq_eq_eq, List.forall₂_map_left_iff, List.forall₂_map_right_iff] at htexts
    exact htexts
  exact hall.imp fun _ _ hp => Site.qualifies_of_declaration hp

/-- Types named like fields of the record, of an alternative and of a hoisted alternative: `fd` means
a field inside `wait` alone. -/
def subscription : Record where
  name := "subscription"
  members :=
    [.simple "error" (.userDefined "errno"),
      .variant
        [.mk (some "wait")
            [.simple "fd" (.array (.userDefined "fd") 2),
              .simple "held" (.pointer (.userDefined "lock") true)],
          .mk none
            [.simple "lock" (.atomic (.userDefined "lock")),
              .range "data" (.userDefined "fd") true "data" "data_len"]]]

theorem defineRecord_qualifies_subscription :
    (defineRecord ⟨"cloudabi", "mstd::range", none⟩ "cloudabi_" subscription).result = .ok 5 ∧
    (defineRecord ⟨"cloudabi", "mstd::range", none⟩ "cloudabi_" subscription).lines.take 11 =
      ["struct subscription \x7b", "  cloudabi::error error;", "  union \x7b", "    struct \x7b",
        "      cloudabi::fd fd[2];", "      const cloudabi::lock *held;", "    \x7d wait;",
        "    std::atomic<cloudabi::lock> lock;", "    mstd::range<fd const> data;", "  \x7d;", "\x7d;"] ∧
    ∃ body, (defineRecord ⟨"cloudabi", "mstd::range", none⟩ "cloudabi_" subscription).lines =
        (Record.definition ⟨"cloudabi", "mstd::range", none⟩ "cloudabi_" subscription body).lines ∧
      List.Forall₂ (fun p f => Site.Qualifies ⟨"cloudabi", "mstd::range", none⟩ p f.text)
        (Record.sites subscription) (Body.fieldsAll body) := by
  have h : (defineRecord ⟨"cloudabi", "mstd::range", none⟩ "cloudabi_" subscription).result =
      .ok 5 := by rfl
  exact ⟨h, by rfl, defineRecord_qualifies_visible_names _ _ subscription 5 h⟩

end AbiLayout.Cpp
