import SheetLang.Outline

/-!
# Paths in outlines

A node of an outline is reached from the topmost node by look-ups: each of them goes by
the name of a relation, and by the place in the list where the relation leads to one.
-/

namespace SheetLang

/-- A look-up of a child, or of the member at a place of a list of children. -/
inductive Lookup where
  | child (name : String)
  | member (name : String) (place : Nat)
  deriving DecidableEq

def Lookup.name : Lookup → String
  | child name | member name _ => name

namespace Outline

/-- The node that a look-up finds. -/
def lookup? (outline : Outline) : Lookup → Option Outline
  | .child name => outline.child? name
  | .member name place => (outline.children? name).bind fun nodes => nodes[place]?

/-- Whatever the relation leads to is found by its name. -/
def Finds (outline : Outline) : Relation → Prop
  | .child name below =>
    outline.relation? name = some (.child name below) ∧ outline.child? name = some below
  | .children name below =>
    outline.relation? name = some (.children name below) ∧ outline.children? name = some below

/-- The node that look-ups lead to, one after the other. -/
def follow? (outline : Outline) : List Lookup → Option Outline
  | [] => some outline
  | lookup :: path => (outline.lookup? lookup).bind fun below => below.follow? path

end Outline

mutual

/-- The paths to the nodes of an outline, in the order in which the nodes come before what
is below them. -/
def Outline.paths : Outline → List (List Lookup)
  | .node _ _ relations => [] :: Relation.pathsAll relations

/-- The paths that begin with a relation. -/
def Relation.paths : Relation → List (List Lookup)
  | .child name node => node.paths.map fun path => .child name :: path
  | .children name nodes => Outline.pathsFrom name 0 nodes

/-- The paths that begin with one of the relations. -/
def Relation.pathsAll : List Relation → List (List Lookup)
  | [] => []
  | relation :: others => relation.paths ++ Relation.pathsAll others

/-- The paths that begin with the members of a list from a place on. -/
def Outline.pathsFrom (name : String) (place : Nat) : List Outline → List (List Lookup)
  | [] => []
  | node :: others =>
    (node.paths.map fun path => .member name place :: path) ++
      Outline.pathsFrom name (place + 1) others

end

end SheetLang
