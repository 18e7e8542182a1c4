import AbiLayout.Json.Reader
import AbiLayout.Proofs.Documents.Yielding

/-!
# Trees of JSON texts

JSON knows neither references nor tags: the tree of a text has none, whether or not the text is well
formed.
-/

namespace AbiLayout.Json

open Document

theorem isDirect_scalarOrBroken (o : Option (Scalar × List Char)) :
    (scalarOrBroken o).1.isDirect = true := by
  cases o <;> rfl

mutual

theorem isDirect_readNode (fuel : Nat) (cs : List Char) : (readNode fuel cs).1.isDirect = true := by
  cases fuel with
  | zero => rfl
  | succ fuel =>
    rw [readNode]
    split
    · rfl
    · split
      · split
        · rfl
        · exact isDirectAll_readElements fuel _
      · split
        · split
          · rfl
          · exact isDirectEntries_readMembers fuel _
        · iterate 4
            split
            · exact isDirect_scalarOrBroken _
          exact isDirect_scalarOrBroken _

theorem isDirectAll_readElements (fuel : Nat) (cs : List Char) :
    Node.isDirectAll (readElements fuel cs).1 = true := by
  cases fuel with
  | zero => rfl
  | succ fuel =>
    have hn := isDirect_readNode fuel cs
    rw [readElements]
    split
    · next n heq =>
      rw [heq] at hn
      simp only [Node.isDirectAll, hn, Bool.and_self]
    · next n rest heq =>
      rw [heq] at hn
      split
      · next rest _ =>
        have hrest := isDirectAll_readElements fuel rest
        simp only [Node.isDirectAll, hn, hrest, Bool.and_self]
      · simp only [Node.isDirectAll, hn, Bool.and_self]
      · simp only [Node.isDirectAll, Node.isDirect, hn, Bool.and_self]

theorem isDirectEntries_readMembers (fuel : Nat) (cs : List Char) :
    Node.isDirectEntries (readMembers fuel cs).1 = true := by
  cases fuel with
  | zero => rfl
  | succ fuel =>
    rw [readMembers]
    split
    · split
      · rfl
      · split
        · next rest _ =>
          have hn := isDirect_readNode fuel rest
          split
          · next n heq =>
            rw [heq] at hn
            simp only [Node.isDirectEntries, Node.isDirect, hn, Bool.and_self]
          · next n rest heq =>
            rw [heq] at hn
            split
            · next rest _ =>
              have hrest := isDirectEntries_readMembers fuel rest
              simp only [Node.isDirectEntries, Node.isDirect, hn, hrest, Bool.and_self]
            · simp only [Node.isDirectEntries, Node.isDirect, hn, Bool.and_self]
            · simp only [Node.isDirectEntries, Node.isDirect, hn, Bool.and_self]
        · rfl
    · rfl

end

theorem isDirect_readDocument (text : String) : (readDocument text).root.isDirect = true := by
  have hroot := isDirect_readNode (2 * text.toList.length + 2) text.toList
  rwa [readDocument]

end AbiLayout.Json
