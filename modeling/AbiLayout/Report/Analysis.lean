import AbiLayout.Description.Model
import AbiLayout.Report.Basic
import AbiLayout.Settings.Basic

/-!
# Analysis of a model

How a report comes about: the types of the model are visited in order, and each adds what there is to
say about it. Entries stand under their names, so an entry whose name is taken replaces the one it
meets. Names are spelled on the way, and a type without a spelling would end the visit.
-/

namespace AbiLayout

open Cpp

/-- Puts an entry in the place of the first one of its name, or behind all others. -/
def placeEntry {α : Type} (name : α → String) (entry : α) : List α → List α
  | [] => [entry]
  | e :: rest => if name e = name entry then entry :: rest else e :: placeEntry name entry rest

namespace Report

def blank (m : Model) : Report := ⟨m.name, [], [], []⟩

def addEnum (r : Report) (e : EnumEntry) : Report :=
  { r with enums := placeEntry EnumEntry.name e r.enums }

def addRecord (r : Report) (e : RecordEntry) : Report :=
  { r with records := placeEntry RecordEntry.name e r.records }

/-- The report with what a type adds to it. -/
def visit (s : Settings) (only : Option String) (r : Report) (t : AbiType) :
    Except RenderError Report :=
  match t.name? with
  | none => .ok r
  | some name =>
    if only.any (· != name) then .ok r
    else if s.excludes name then .ok { r with excluded := r.excluded ++ [name] }
    else
      match t with
      | .intLike body => do
        return r.addEnum ⟨name, ← generated.spell t, ← (canonical s.canonicalLead).spell t,
          body.intType, body.flags, body.values.map (valueEntry s.canonicalLead body)⟩
      | .record _ members => do
        return r.addRecord ⟨name, ← generated.spell t, ← (canonical s.canonicalLead).spell t,
          sharedOffsets members s.rangeLengthMember⟩
      | .void | .int _ | .atomic _ | .pointer _ _ | .array _ _ | .aliasOf _ _ | .userDefined _ => .ok r

end Report

/-- The report on a model, restricted to one name where `only` gives it. -/
def analyze (s : Settings) (m : Model) (only : Option String) : Except RenderError Report :=
  m.types.foldlM (Report.visit s only) (.blank m)

end AbiLayout
