import Mathlib.Data.List.Perm.Basic
import SheetLang.Outline.Branches

/-!
# Descents and orders of nodes

Every node but the topmost one is entered by one descent.  The descents come in the order of
the nodes that come behind those below them, and they are the steps of all nodes.
-/

namespace SheetLang

/-! ## Lists of nodes -/

theorem Outline.preorderAll_eq_flatMap (nodes : List Outline) :
    Outline.preorderAll nodes = nodes.flatMap Outline.preorder := by
  induction nodes with
  | nil => rfl
  | cons node others induction => rw [Outline.preorderAll, induction, List.flatMap_cons]

theorem Outline.length_preorderAll (nodes : List Outline) :
    (Outline.preorderAll nodes).length = Outline.total nodes := by
  induction nodes with
  | nil => rfl
  | cons node others induction =>
      rw [Outline.preorderAll, List.length_append, induction, Outline.total, Outline.size]

theorem Outline.length_preorder (outline : Outline) : outline.preorder.length = outline.size :=
  rfl

mutual

/-- Both orders have the same nodes. -/
theorem Outline.postorder_perm (outline : Outline) :
    outline.postorder.Perm outline.preorder := by
  cases outline with
  | node kind value relations =>
      exact List.perm_append_comm.trans ((Relation.postorderAll_perm relations).cons _)

theorem Relation.postorder_perm (relation : Relation) :
    relation.postorder.Perm relation.preorder := by
  cases relation with
  | child name node => exact Outline.postorder_perm node
  | children name nodes => exact Outline.postorderAll_perm nodes

theorem Relation.postorderAll_perm (relations : List Relation) :
    (Relation.postorderAll relations).Perm (Relation.preorderAll relations) := by
  cases relations with
  | nil => exact List.Perm.nil
  | cons relation others =>
      exact (Relation.postorder_perm relation).append (Relation.postorderAll_perm others)

theorem Outline.postorderAll_perm (nodes : List Outline) :
    (Outline.postorderAll nodes).Perm (Outline.preorderAll nodes) := by
  cases nodes with
  | nil => exact List.Perm.nil
  | cons node others =>
      exact (Outline.postorder_perm node).append (Outline.postorderAll_perm others)

end

/-! ## Descents -/

open Outline

mutual

theorem Outline.children_descents (outline : Outline) :
    outline.descents.map Descent.child ++ [outline] = outline.postorder := by
  cases outline with
  | node kind value relations =>
      rw [Outline.descents, Relation.children_descentsAll, Outline.postorder]

theorem Relation.children_descents (parent : Outline) (relation : Relation) :
    (relation.descents parent).map Descent.child = relation.postorder := by
  cases relation with
  | child name node =>
      rw [Relation.descents, List.map_append, List.map_singleton, Relation.postorder]
      exact Outline.children_descents node
  | children name nodes => exact Outline.children_descentsAll parent name nodes

theorem Relation.children_descentsAll (parent : Outline) (relations : List Relation) :
    (Relation.descentsAll parent relations).map Descent.child =
      Relation.postorderAll relations := by
  cases relations with
  | nil => rfl
  | cons relation others =>
      rw [Relation.descentsAll, List.map_append, Relation.children_descents parent relation,
        Relation.children_descentsAll parent others, Relation.postorderAll]

theorem Outline.children_descentsAll (parent : Outline) (name : String) (nodes : List Outline) :
    (Outline.descentsAll parent name nodes).map Descent.child = Outline.postorderAll nodes := by
  cases nodes with
  | nil => rfl
  | cons node others =>
      rw [Outline.descentsAll, List.map_append, List.map_cons,
        Outline.children_descentsAll parent name others, Outline.postorderAll,
        ← Outline.children_descents node, List.append_assoc, List.singleton_append]

end

theorem Outline.length_descents (outline : Outline) :
    outline.descents.length + 1 = outline.size := by
  have lengths := congrArg List.length outline.children_descents
  rw [List.length_append, List.length_map, List.length_singleton] at lengths
  rw [lengths, outline.postorder_perm.length_eq, Outline.size]

def Relation.steps (parent : Outline) (relation : Relation) : List Descent :=
  relation.members.map fun (name, below) => ⟨parent, name, below⟩

theorem Outline.steps_node (kind : Outline.Kind) (value : Option String)
    (relations : List Relation) :
    (node kind value relations).steps =
      relations.flatMap (Relation.steps (node kind value relations)) := by
  rw [Outline.steps, Outline.branches, List.map_flatMap]
  rfl

/-- Steps of a list and of what stands behind it may change their places. -/
theorem perm_interleave {α : Type} {front back first later second last : List α}
    (own : front.Perm (first ++ later)) (others : back.Perm (second ++ last)) :
    (front ++ back).Perm ((first ++ second) ++ (later ++ last)) := by
  have middle : (later ++ second).Perm (second ++ later) := List.perm_append_comm
  calc
    (front ++ back).Perm ((first ++ later) ++ (second ++ last)) := own.append others
    _ = first ++ ((later ++ second) ++ last) := by simp only [List.append_assoc]
    List.Perm _ (first ++ ((second ++ later) ++ last)) :=
      (middle.append_right last).append_left first
    _ = (first ++ second) ++ (later ++ last) := by simp only [List.append_assoc]

mutual

/-- The descents are the steps of the nodes. -/
theorem Outline.descents_perm (outline : Outline) :
    outline.descents.Perm (outline.preorder.flatMap Outline.steps) := by
  cases outline with
  | node kind value relations =>
      rw [Outline.descents, Outline.preorder, List.flatMap_cons, Outline.steps_node]
      exact Relation.descentsAll_perm _ relations

theorem Relation.descents_perm (parent : Outline) (relation : Relation) :
    (relation.descents parent).Perm
      (relation.steps parent ++ relation.preorder.flatMap Outline.steps) := by
  cases relation with
  | child name node =>
      exact ((Outline.descents_perm node).append_right _).trans List.perm_append_comm
  | children name nodes =>
      have whole := Outline.descentsAll_perm parent name nodes
      rwa [Relation.descents, Relation.steps, Relation.members, List.map_map]

theorem Relation.descentsAll_perm (parent : Outline) (relations : List Relation) :
    (Relation.descentsAll parent relations).Perm
      (relations.flatMap (Relation.steps parent) ++
        (Relation.preorderAll relations).flatMap Outline.steps) := by
  cases relations with
  | nil => exact List.Perm.nil
  | cons relation others =>
      rw [Relation.descentsAll, Relation.preorderAll, List.flatMap_cons, List.flatMap_append]
      exact perm_interleave (Relation.descents_perm parent relation)
        (Relation.descentsAll_perm parent others)

theorem Outline.descentsAll_perm (parent : Outline) (name : String) (nodes : List Outline) :
    (Outline.descentsAll parent name nodes).Perm
      ((nodes.map fun node => (⟨parent, name, node⟩ : Descent)) ++
        (Outline.preorderAll nodes).flatMap Outline.steps) := by
  cases nodes with
  | nil => exact List.Perm.nil
  | cons node others =>
      rw [Outline.descentsAll, Outline.preorderAll, List.map_cons, List.flatMap_append,
        ← List.singleton_append, ← List.append_assoc, ← List.singleton_append (l := List.map _ _)]
      have own := ((Outline.descents_perm node).append_right [⟨parent, name, node⟩]).trans
        List.perm_append_comm
      exact perm_interleave own (Outline.descentsAll_perm parent name others)

end

/-! ## Branches -/

/-- The descents to nodes below a node, and those below. -/
def Outline.entered (parent : Outline) (branches : List (String × Outline)) : List Descent :=
  branches.flatMap fun (name, below) => below.descents ++ [⟨parent, name, below⟩]

theorem Outline.entered_cons (parent node : Outline) (name : String)
    (others : List (String × Outline)) :
    entered parent ((name, node) :: others) =
      node.descents ++ ⟨parent, name, node⟩ :: entered parent others := by
  rw [entered, List.flatMap_cons, List.append_assoc, List.singleton_append]
  rfl

theorem Relation.preorder_eq_flatMap (relation : Relation) :
    relation.preorder = relation.members.flatMap fun branch => branch.2.preorder := by
  cases relation with
  | child name node => exact (List.append_nil _).symm
  | children name nodes =>
      rw [Relation.preorder, Relation.members, List.flatMap_map, Outline.preorderAll_eq_flatMap]

theorem Relation.preorderAll_eq_flatMap (relations : List Relation) :
    Relation.preorderAll relations =
      (relations.flatMap Relation.members).flatMap fun branch => branch.2.preorder := by
  induction relations with
  | nil => rfl
  | cons relation others induction =>
      rw [Relation.preorderAll, induction, List.flatMap_cons, List.flatMap_append,
        Relation.preorder_eq_flatMap]

theorem Outline.descentsAll_eq_entered (parent : Outline) (name : String)
    (nodes : List Outline) :
    Outline.descentsAll parent name nodes =
      entered parent (nodes.map fun node => (name, node)) := by
  induction nodes with
  | nil => rfl
  | cons node others induction =>
      rw [Outline.descentsAll, induction, List.map_cons, entered_cons]

theorem Relation.descentsAll_eq_entered (parent : Outline) (relations : List Relation) :
    Relation.descentsAll parent relations =
      entered parent (relations.flatMap Relation.members) := by
  induction relations with
  | nil => rfl
  | cons relation others induction =>
      rw [Relation.descentsAll, induction, List.flatMap_cons, entered, entered,
        List.flatMap_append]
      congr 1
      cases relation with
      | child name node => exact (List.append_nil _).symm
      | children name nodes => exact Outline.descentsAll_eq_entered parent name nodes

theorem Outline.flattenedAll_eq_map (name : String) (nodes : List Outline) :
    Outline.flattenedAll name nodes = nodes.map fun node => .child name node.flattened := by
  induction nodes with
  | nil => rfl
  | cons node others induction => rw [Outline.flattenedAll, induction, List.map_cons]

theorem Relation.flattenedAll_eq_map (relations : List Relation) :
    Relation.flattenedAll relations =
      (relations.flatMap Relation.members).map
        fun (name, below) => .child name below.flattened := by
  induction relations with
  | nil => rfl
  | cons relation others induction =>
      rw [Relation.flattenedAll, induction, List.flatMap_cons, List.map_append]
      congr 1
      cases relation with
      | child name node => rfl
      | children name nodes =>
          rw [Relation.flattened, Relation.members, List.map_map, Outline.flattenedAll_eq_map]
          rfl

namespace Outline

theorem preorder_eq_cons (outline : Outline) :
    outline.preorder = outline :: outline.branches.flatMap fun branch => branch.2.preorder := by
  cases outline with
  | node kind value relations => rw [preorder, Relation.preorderAll_eq_flatMap]; rfl

theorem descents_eq_entered (outline : Outline) :
    outline.descents = entered outline outline.branches := by
  cases outline with
  | node kind value relations => rw [descents, Relation.descentsAll_eq_entered]; rfl

theorem flattened_eq_node (outline : Outline) :
    outline.flattened = .node outline.kind outline.value?
      (outline.branches.map fun (name, below) => .child name below.flattened) := by
  cases outline with
  | node kind value relations => rw [flattened, Relation.flattenedAll_eq_map]; rfl

/-- Flattened outlines are equal if the topmost nodes have the same kind and value, and the
same nodes below them under the same names. -/
theorem flattened_eq_iff {outline other : Outline} :
    outline.flattened = other.flattened ↔
      outline.kind = other.kind ∧ outline.value? = other.value? ∧
        (outline.branches.map fun (name, below) => (name, below.flattened)) =
          other.branches.map fun (name, below) => (name, below.flattened) := by
  have children (branches : List (String × Outline)) :
      (branches.map fun (name, below) => Relation.child name below.flattened) =
        (branches.map fun (name, below) => (name, below.flattened)).map
          fun (name, below) => Relation.child name below := by
    rw [List.map_map]
    rfl
  have injective : Function.Injective
      fun (branch : String × Outline) => Relation.child branch.1 branch.2 := by
    rintro ⟨name, below⟩ ⟨otherName, otherBelow⟩ same
    cases same
    rfl
  rw [flattened_eq_node, flattened_eq_node other, node.injEq, children, children,
    List.map_inj_right injective]

theorem size_lt_of_mem_branches {outline : Outline} {branch : String × Outline}
    (member : branch ∈ outline.branches) : branch.2.size < outline.size := by
  obtain ⟨front, back, split⟩ := List.append_of_mem member
  rw [size, size, outline.preorder_eq_cons, split, List.length_cons, List.flatMap_append,
    List.flatMap_cons, List.length_append, List.length_append]
  omega

/-- What is true of a node if it is true of those right below it is true of all nodes. -/
theorem branch_induction {motive : Outline → Prop}
    (step : ∀ outline, (∀ branch ∈ outline.branches, motive branch.2) → motive outline)
    (outline : Outline) : motive outline := by
  induction measure : outline.size using Nat.strongRecOn generalizing outline with
  | ind size induction =>
      subst measure
      exact step outline fun branch member =>
        induction _ (size_lt_of_mem_branches member) branch.2 rfl

end Outline

end SheetLang
