import SheetLang.Outline
import SheetLang.Binary64.Shortest
import SheetLang.Token

/-!
# Content

The names, texts and numbers that a source holds, once as its tokens have them and once
as an outline shows them.  Reserved words and symbols have no content of their own.
-/

namespace SheetLang

/-- The name, the text or the number of a token as it is shown: whole numbers and decimals
by their value, and info strings without the marks around them. -/
def Token.content? (token : Token) : Option String :=
  match token.kind with
  | .keyword _ | .symbol _ => none
  | .ident | .coordinate | .rangeName | .sheetName | .funcName => some token.text
  | .integer => some (toString (Literal.wholeNumber token.text))
  | .decimal => some (Binary64.ofLiteral token.text).render
  | .info => some (String.ofList (token.text.toList.filter (· != '!')))

/-- The content of tokens, in their order. -/
def Token.content (tokens : List Token) : List String :=
  tokens.filterMap Token.content?

/-- Whether the value of a node is content.  The text of a cell reference only repeats the
names below it, and the values of the others stand for reserved words and symbols. -/
@[simp] def Outline.Kind.hasContent : Outline.Kind → Bool
  | cellRef | print | typeName | operator => false
  | _ => true

namespace Outline

/-- The value of a node, if it is content. -/
def content? (node : Outline) : Option String :=
  if node.kind.hasContent then node.value? else none

/-- The content of an outline, in the order in which the nodes come before what is below
them. -/
def content (outline : Outline) : List String :=
  outline.preorder.filterMap content?

end Outline

def Relation.content (relation : Relation) : List String :=
  relation.preorder.filterMap Outline.content?

theorem Outline.filterMap_preorderAll (nodes : List Outline) :
    (Outline.preorderAll nodes).filterMap content? = nodes.flatMap content := by
  induction nodes with
  | nil => rfl
  | cons node others induction =>
      rw [Outline.preorderAll, List.filterMap_append, induction, List.flatMap_cons, content]

theorem Relation.filterMap_preorderAll (relations : List Relation) :
    (Relation.preorderAll relations).filterMap Outline.content? =
      relations.flatMap Relation.content := by
  induction relations with
  | nil => rfl
  | cons relation others induction =>
      rw [Relation.preorderAll, List.filterMap_append, induction, List.flatMap_cons, content]

@[simp] theorem Relation.content_child (name : String) (node : Outline) :
    (Relation.child name node).content = node.content := by
  rw [Relation.content, Relation.preorder, Outline.content]

@[simp] theorem Relation.content_children (name : String) (nodes : List Outline) :
    (Relation.children name nodes).content = nodes.flatMap Outline.content := by
  rw [Relation.content, Relation.preorder, Outline.filterMap_preorderAll]

/-- The content of a node stands before the content below it. -/
@[simp] theorem Outline.content_node (kind : Outline.Kind) (value : Option String)
    (relations : List Relation) :
    (Outline.node kind value relations).content =
      (if kind.hasContent then value else none).toList ++ relations.flatMap Relation.content := by
  rw [Outline.content, Outline.preorder, List.filterMap_cons, Relation.filterMap_preorderAll,
    content?, Outline.kind, value?]
  cases (if kind.hasContent then value else none) <;> rfl

@[simp] theorem Outline.content_leaf (kind : Outline.Kind) (value : String) :
    (Outline.leaf kind value).content = if kind.hasContent then [value] else [] := by
  rw [Outline.leaf, Outline.content_node]
  cases kind.hasContent <;> rfl

end SheetLang
