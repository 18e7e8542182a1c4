import AbiLayout.Proofs.Headers.Assembly
import AbiLayout.Proofs.Reports.Analysis

/-!
# Reports and the included types

A whole report is about the included types and no others. Main statements: its entries are those of the
included enumerations and of the included records, and a report on one name is that part of the whole
report.
-/

namespace AbiLayout

open Cpp

namespace Report

/-! ### Parts of a report -/

theorem reportedTypes_filter (types : List AbiType) (only : Option String) (p : AbiType → Bool) :
    (reportedTypes types only).filter p = reportedTypes (types.filter p) only := by
  rw [reportedTypes, reportedTypes, List.filter_filter, List.filter_filter]
  exact List.filter_congr fun t _ => Bool.and_comm _ _

section

variable {β : Type} {f : AbiType → Option β} {key : β → String}
  (hkey : ∀ t b, f t = some b → t.name? = some (key b))

include hkey

theorem filterMap_reportedTypes_none (types : List AbiType) :
    (reportedTypes types none).filterMap f = types.filterMap f := by
  rw [reportedTypes, List.filterMap_filter]
  congr 1
  funext t
  cases hf : f t with
  | none => simp
  | some b => simp [hkey t b hf]

theorem filterMap_reportedTypes_some (types : List AbiType) (name : String) :
    (reportedTypes types (some name)).filterMap f =
      (types.filterMap f).filter fun b => key b == name := by
  rw [reportedTypes, List.filterMap_filter, List.filter_filterMap]
  congr 1
  funext t
  cases hf : f t with
  | none => simp
  | some b => simp [hkey t b hf, Option.filter, BEq.comm (a := name)]

end

theorem enums_ofModel (s : Settings) (m : Model) :
    (ofModel s m none).enums = (includedIntLikes s m).map (enumEntry s.canonicalLead) := by
  rw [ofModel, ofTypes, reportedTypes_filter,
    filterMap_reportedTypes_none fun _ _ h => AbiType.name?_of_intLike? h]
  rfl

theorem records_ofModel (s : Settings) (m : Model) :
    (ofModel s m none).records =
      (includedRecords s m).map (recordEntry s.canonicalLead s.rangeLengthMember) := by
  rw [ofModel, ofTypes, reportedTypes_filter,
    filterMap_reportedTypes_none fun _ _ h => AbiType.name?_of_record? h]
  rfl

/-- The part of a report that stands under one name. -/
def restricted (r : Report) (name : String) : Report :=
  { r with
    excluded := r.excluded.filter fun n => n == name
    enums := r.enums.filter fun e => e.name == name
    records := r.records.filter fun e => e.name == name }

/-- A report on one name is that part of the whole report. -/
theorem ofModel_some (s : Settings) (m : Model) (name : String) :
    ofModel s m (some name) = (ofModel s m none).restricted name := by
  have hexcluded : (ofModel s m (some name)).excluded =
      (ofModel s m none).excluded.filter fun n => n == name := by
    have hkey : ∀ (t : AbiType) n, t.name? = some n → t.name? = some (id n) := fun _ _ h => h
    have hsome := filterMap_reportedTypes_some hkey m.types name
    have hnone := filterMap_reportedTypes_none hkey m.types
    show ((reportedTypes m.types (some name)).filterMap AbiType.name?).filter s.excludes =
      (((reportedTypes m.types none).filterMap AbiType.name?).filter s.excludes).filter _
    rw [hsome, hnone, List.filter_filter, List.filter_filter]
    exact List.filter_congr fun n _ => Bool.and_comm _ _
  have henums : (ofModel s m (some name)).enums =
      (ofModel s m none).enums.filter fun e => e.name == name := by
    rw [enums_ofModel, ofModel, ofTypes, reportedTypes_filter,
      filterMap_reportedTypes_some fun _ _ h => AbiType.name?_of_intLike? h, List.filter_map]
    rfl
  have hrecords : (ofModel s m (some name)).records =
      (ofModel s m none).records.filter fun e => e.name == name := by
    rw [records_ofModel, ofModel, ofTypes, reportedTypes_filter,
      filterMap_reportedTypes_some fun _ _ h => AbiType.name?_of_record? h, List.filter_map]
    rfl
  rw [restricted, ← hexcluded, ← henums, ← hrecords]
  rfl

end Report

end AbiLayout
