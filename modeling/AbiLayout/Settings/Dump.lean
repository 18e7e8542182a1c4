import AbiLayout.Json.Tree
import AbiLayout.Settings.Basic

/-!
# Settings as JSON

The full written form of settings, with every setting present.
-/

namespace AbiLayout

open Json (Tree)
open Json.Tree

def HeaderFrame.dump (a : HeaderFrame) : Tree :=
  object [("file-name", text a.fileName), ("header-guard", text a.headerGuard),
    ("preamble", text a.preamble)]

def Settings.dump (s : Settings) : Tree :=
  object [("namespace", text s.space), ("canonical-prefix", text s.canonicalLead),
    ("exclude", array (s.exclude.names.map text)), ("range-view-type", text s.rangeViewType),
    ("range-length-member", optional s.rangeLengthMember),
    ("types-artifact", s.typesFrame.dump), ("structs-artifact", s.recordsFrame.dump)]

end AbiLayout
