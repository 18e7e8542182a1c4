import AbiLayout.Cpp.Emission
import AbiLayout.Cpp.Scope
import AbiLayout.Cpp.Spelling

/-!
# Outlines of records

The body of a generated record as a tree: fields, anonymous unions, and nested records for the named
alternatives. Building the outline never stops; each field holds its declaration or the fault that
keeps it from having one, and each nested record holds the fault of its scope. Rendering an outline
writes its lines in order, up to the first fault.
-/

namespace AbiLayout.Cpp

/-- One declaration in the body of a record. -/
inductive Outline where
  | field (name : String) (text : Except RenderError String)
  | union (body : List Outline)
  | nested (name : String) (fault : Option RenderError) (body : List Outline)

structure RecordSettings where
  space : String
  rangeViewType : String
  rangeLengthMember : Option String
deriving DecidableEq, Repr

def rangeDeclaration (view target : String) (constant : Bool) (name : String) : String :=
  view ++ "<" ++ target ++ (if constant then " const" else "") ++ "> " ++ name

mutual

/-- The outline of one member, where `visible` are the names of the enclosing scopes. -/
def outlineMember (s : RecordSettings) (scope : String) (visible : List String) :
    Member → Outline
  | .simple name type => .field (mangle name) ((insideRecord s.space visible).declaration type (mangle name))
  | .variant alternatives => .union (outlineAlternatives s scope visible alternatives)
  | .range name target constant _ _ =>
    .field (mangle name) do
      return rangeDeclaration s.rangeViewType (← (insideRecord s.space visible).spell target) constant
        (mangle name)

def outlineMembers (s : RecordSettings) (scope : String) (visible : List String) :
    List Member → List Outline
  | [] => []
  | m :: rest => outlineMember s scope visible m :: outlineMembers s scope visible rest

/-- The outline of one alternative: an anonymous one is hoisted, a named one is a scope of its own,
inside which the names around it stay visible. -/
def outlineAlternative (s : RecordSettings) (scope : String) (visible : List String) :
    Alternative → List Outline
  | .mk none members => outlineMembers s scope visible members
  | .mk (some name) members =>
    [.nested (mangle name) (scopeFault (scope ++ "." ++ mangle name) members)
      (outlineMembers s (scope ++ "." ++ mangle name) (declaredNames members ++ visible) members)]

def outlineAlternatives (s : RecordSettings) (scope : String) (visible : List String) :
    List Alternative → List Outline
  | [] => []
  | a :: rest => outlineAlternative s scope visible a ++ outlineAlternatives s scope visible rest

end

def outlineRecord (s : RecordSettings) (r : Record) : List Outline :=
  outlineMembers s (mangle r.name) (declaredNames r.members) r.members

def indentation (depth : Nat) : String := String.ofList (List.replicate (2 * depth) ' ')

namespace Outline

mutual

def emit (depth : Nat) : Outline → Emission Unit
  | .field _ text => do
    let declaration ← Emission.lift text
    Emission.line (indentation depth ++ declaration ++ ";")
  | .union body => do
    Emission.line (indentation depth ++ "union \x7b")
    emitAll (depth + 1) body
    Emission.line (indentation depth ++ "\x7d;")
  | .nested name fault body => do
    Emission.line (indentation depth ++ "struct \x7b")
    Emission.check fault
    emitAll (depth + 1) body
    Emission.line (indentation depth ++ "\x7d " ++ name ++ ";")

def emitAll (depth : Nat) : List Outline → Emission Unit
  | [] => Emission.value ()
  | o :: rest => do
    emit depth o
    emitAll depth rest

end

end Outline

end AbiLayout.Cpp
