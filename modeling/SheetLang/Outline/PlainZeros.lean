import SheetLang.Outline

/-!
# Plain zeros in outlines

The two zeros are equal as numbers but have different texts.  An outline with plain zeros
has the text of the positive zero at every decimal that is zero.
-/

namespace SheetLang

/-- The value of a node, without the sign if it is that of a decimal that is zero. -/
def Outline.plainValue (kind : Outline.Kind) (value : Option String) : Option String :=
  if kind = .decimal ∧ value = some "-0.0" then some "0.0" else value

mutual

/-- An outline with plain zeros. -/
def Outline.plainZeros : Outline → Outline
  | .node kind value relations =>
    .node kind (Outline.plainValue kind value) (Relation.plainZerosAll relations)

@[simp] def Relation.plainZeros : Relation → Relation
  | .child name node => .child name node.plainZeros
  | .children name nodes => .children name (Outline.plainZerosAll nodes)

@[simp] def Relation.plainZerosAll : List Relation → List Relation
  | [] => []
  | relation :: others => relation.plainZeros :: Relation.plainZerosAll others

@[simp] def Outline.plainZerosAll : List Outline → List Outline
  | [] => []
  | node :: others => node.plainZeros :: Outline.plainZerosAll others

end

variable {kind : Outline.Kind}

@[simp] theorem Outline.plainZeros_node (other : kind ≠ .decimal) (value : Option String)
    (relations : List Relation) :
    (Outline.node kind value relations).plainZeros =
      .node kind value (Relation.plainZerosAll relations) := by
  rw [Outline.plainZeros, Outline.plainValue, if_neg fun named => other named.1]

@[simp] theorem Outline.plainZeros_leaf (other : kind ≠ .decimal) (value : String) :
    (Outline.leaf kind value).plainZeros = .leaf kind value := by
  rw [Outline.leaf, Outline.plainZeros_node other, Relation.plainZerosAll]

theorem Outline.plainZerosAll_eq_map (nodes : List Outline) :
    Outline.plainZerosAll nodes = nodes.map Outline.plainZeros := by
  induction nodes with
  | nil => rfl
  | cons node others induction => rw [Outline.plainZerosAll, induction, List.map_cons]

end SheetLang
