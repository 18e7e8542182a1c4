import AbiLayout.Description.Types
import AbiLayout.Text.Identifier

/-!
# Names that canonical code can spell

Canonical code is addressed with the names as they are declared. Member and alternative names stand on
their own in the paths of fields and have to be identifiers; type names, value names and value infixes are
always pasted after something, so only their characters count. A type is well named when every name
found anywhere in it is good for its kind; the names are visited in the order of the description.
-/

namespace AbiLayout

inductive NameKind where
  | type
  | value
  | valueInfix
  | member
  | alternative
deriving DecidableEq, Repr

def NameKind.text : NameKind → String
  | .type => "type"
  | .value => "value"
  | .valueInfix => "value prefix"
  | .member => "member"
  | .alternative => "alternative"

def NameKind.admits : NameKind → String → Bool
  | .member | .alternative => Text.isIdentifier
  | .type | .value | .valueInfix => Text.isFragment

structure NamedPart where
  kind : NameKind
  name : String
deriving DecidableEq, Repr

def NamedPart.isGood (p : NamedPart) : Bool := p.kind.admits p.name

def IntLike.names (e : IntLike) : List NamedPart :=
  ⟨.type, e.name⟩ :: (e.infixName.toList.map fun text => ⟨.valueInfix, text⟩) ++
    e.values.map fun v => ⟨.value, v.name⟩

mutual

/-- Every name in a type, in the order of the description. -/
def AbiType.names : AbiType → List NamedPart
  | .void => []
  | .int _ => []
  | .atomic target => target.names
  | .pointer target _ => target.names
  | .array element _ => element.names
  | .aliasOf name underlying => ⟨.type, name⟩ :: underlying.names
  | .intLike body => body.names
  | .userDefined name => [⟨.type, name⟩]
  | .record name members => ⟨.type, name⟩ :: membersNamedParts members

def Member.names : Member → List NamedPart
  | .simple name type => ⟨.member, name⟩ :: type.names
  | .variant alternatives => alternativesNamedParts alternatives
  | .range name target _ baseName lengthName =>
    ⟨.member, name⟩ :: ⟨.member, baseName⟩ :: ⟨.member, lengthName⟩ :: target.names

def Alternative.names : Alternative → List NamedPart
  | .mk none members => membersNamedParts members
  | .mk (some name) members => ⟨.alternative, name⟩ :: membersNamedParts members

def membersNamedParts : List Member → List NamedPart
  | [] => []
  | m :: rest => m.names ++ membersNamedParts rest

def alternativesNamedParts : List Alternative → List NamedPart
  | [] => []
  | a :: rest => a.names ++ alternativesNamedParts rest

end

/-- The first bad name of a type. -/
def AbiType.badName? (t : AbiType) : Option NamedPart := t.names.find? fun p => !p.isGood

def AbiType.WellNamed (t : AbiType) : Prop := ∀ p ∈ t.names, p.isGood = true

theorem AbiType.badName?_eq_none_iff (t : AbiType) : t.badName? = none ↔ t.WellNamed := by
  simp [badName?, WellNamed]

end AbiLayout
