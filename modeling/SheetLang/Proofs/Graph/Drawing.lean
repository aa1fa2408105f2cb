import Mathlib.Data.List.Nodup
import Mathlib.Data.List.Pairwise
import SheetLang.Graph.Numbering
import SheetLang.Proofs.Outline.Branches

/-!
# Drawings show their outlines

What a drawing adds to a graph depends on the graph only by the number of vertices that are
there and by the direction: the vertices of the nodes and the edges of the descents.
-/

namespace SheetLang

namespace Graph

def append (graph : Graph) (vertices : List Vertex) (edges : List Edge) : Graph :=
  { graph with
    vertices := graph.vertices ++ vertices.toArray
    edges := graph.edges ++ edges.toArray }

/-- The vertices of nodes, when so many are there. -/
def verticesFrom (before : Nat) (nodes : List Outline) : List Vertex :=
  (nodes.zipIdx before).map fun (node, place) => ⟨vertexName (place + 1), some node.label⟩

section

variable (graph : Graph) (vertices later : List Vertex) (edges others : List Edge)

@[simp] theorem directed_append : (graph.append vertices edges).directed = graph.directed :=
  rfl

@[simp] theorem size_vertices_append :
    (graph.append vertices edges).vertices.size = graph.vertices.size + vertices.length := by
  simp [append]

@[simp] theorem append_append :
    (graph.append vertices edges).append later others =
      graph.append (vertices ++ later) (edges ++ others) := by
  simp [append]

@[simp] theorem append_nil : graph.append [] [] = graph := by
  simp [append]

theorem addNode_eq {before : Nat} (drawn : graph.vertices.size = before) (node : Outline) :
    graph.addNode node.label =
      (vertexName (before + 1), graph.append (verticesFrom before [node]) []) := by
  subst drawn
  simp [addNode, addVertex, append, verticesFrom]

theorem connect_eq (parent child : Outline) (name : String) :
    graph.connect parent.vertex child.vertex name =
      graph.append [] [Outline.Descent.edge graph.directed ⟨parent, name, child⟩] := by
  simp [connect, addEdge, append, Outline.Descent.edge]

end

@[simp] theorem length_verticesFrom (before : Nat) (nodes : List Outline) :
    (verticesFrom before nodes).length = nodes.length := by
  rw [verticesFrom, List.length_map, List.length_zipIdx]

theorem verticesFrom_append (before : Nat) (nodes others : List Outline) :
    verticesFrom before (nodes ++ others) =
      verticesFrom before nodes ++ verticesFrom (before + nodes.length) others := by
  rw [verticesFrom, List.zipIdx_append, List.map_append]
  rfl

end Graph

open Graph Outline

theorem Outline.vertex_numbered (outline : Outline) (before : Nat) :
    (outline.numbered before).vertex = vertexName (before + 1) := by
  cases outline
  rfl

/-! ## What is added -/

/-- The label does not depend on what is below. -/
theorem Outline.label_node (kind : Outline.Kind) (value : Option String)
    (relations : List Relation) :
    (node kind value []).label = (node kind value relations).label := by
  cases value <;> rfl

mutual

/-- Drawing adds a vertex for every node and an edge for every descent. -/
theorem Outline.draw_eq (outline : Outline) (graph : Graph) {before : Nat}
    (drawn : graph.vertices.size = before) :
    outline.draw graph = ((outline.numbered before).vertex,
      graph.append (verticesFrom before outline.preorder)
        ((outline.numbered before).descents.map (Descent.edge graph.directed))) := by
  cases outline with
  | node kind value relations =>
      have first := graph.addNode_eq drawn (.node kind value relations)
      have below := Relation.drawAll_eq ((Outline.node kind value relations).numbered before)
        relations (graph.append (verticesFrom before [.node kind value relations]) [])
        (by rw [size_vertices_append, drawn, length_verticesFrom])
      rw [append_append, List.nil_append, directed_append] at below
      rw [Outline.draw, Outline.label_node, first, Outline.preorder,
        ← List.singleton_append (l := Relation.preorderAll relations), verticesFrom_append]
      exact congrArg (Prod.mk _) below

theorem Relation.draw_eq (parent : Outline) (relation : Relation) (graph : Graph) {before : Nat}
    (drawn : graph.vertices.size = before) :
    relation.draw parent.vertex graph =
      graph.append (verticesFrom before relation.preorder)
        (((relation.numbered before).descents parent).map (Descent.edge graph.directed)) := by
  cases relation with
  | child name node =>
      simp only [Relation.draw, Relation.numbered, Relation.descents, Relation.preorder,
        Outline.draw_eq node graph drawn, connect_eq, append_append, directed_append,
        List.map_append, List.map_singleton, List.append_nil]
  | children name nodes => exact Outline.drawAll_eq parent name nodes graph drawn

theorem Relation.drawAll_eq (parent : Outline) (relations : List Relation) (graph : Graph)
    {before : Nat} (drawn : graph.vertices.size = before) :
    Relation.drawAll parent.vertex relations graph =
      graph.append (verticesFrom before (Relation.preorderAll relations))
        ((Relation.descentsAll parent (Relation.numberedAll before relations)).map
          (Descent.edge graph.directed)) := by
  cases relations with
  | nil => exact graph.append_nil.symm
  | cons relation others =>
      have later := Relation.drawAll_eq parent others
        (graph.append (verticesFrom before relation.preorder)
          (((relation.numbered before).descents parent).map (Descent.edge graph.directed)))
        (by rw [size_vertices_append, drawn, length_verticesFrom])
      rw [Relation.drawAll, Relation.draw_eq parent relation graph drawn, later, append_append,
        Relation.preorderAll, verticesFrom_append, Relation.numberedAll, Relation.descentsAll,
        List.map_append, directed_append]

theorem Outline.drawAll_eq (parent : Outline) (name : String) (nodes : List Outline)
    (graph : Graph) {before : Nat} (drawn : graph.vertices.size = before) :
    Outline.drawAll parent.vertex name nodes graph =
      graph.append (verticesFrom before (Outline.preorderAll nodes))
        ((Outline.descentsAll parent name (Outline.numberedAll before nodes)).map
          (Descent.edge graph.directed)) := by
  cases nodes with
  | nil => exact graph.append_nil.symm
  | cons node others =>
      have later := Outline.drawAll_eq parent name others
        (graph.append (verticesFrom before node.preorder)
          ((node.numbered before).descents.map (Descent.edge graph.directed) ++
            [Descent.edge graph.directed ⟨parent, name, node.numbered before⟩]))
        (by rw [size_vertices_append, drawn, length_verticesFrom])
      rw [append_append, directed_append, List.append_assoc, List.singleton_append] at later
      rw [Outline.drawAll, Outline.draw_eq node graph drawn, Outline.preorderAll,
        verticesFrom_append, Outline.numberedAll, Outline.descentsAll, List.map_append,
        List.map_cons]
      simp only [connect_eq, append_append, directed_append, List.append_nil]
      exact later

end

/-! ## Several outlines -/

theorem Outline.drawEach_eq (outlines : List Outline) (graph : Graph) {before : Nat}
    (drawn : graph.vertices.size = before) :
    (drawEach outlines graph).2 =
      graph.append (verticesFrom before (Outline.preorderAll outlines))
        (((Outline.numberedAll before outlines).flatMap Outline.descents).map
          (Descent.edge graph.directed)) := by
  induction outlines generalizing graph before with
  | nil => exact graph.append_nil.symm
  | cons outline others induction =>
      simp only [drawEach, Outline.draw_eq outline graph drawn]
      rw [induction _ (by rw [size_vertices_append, drawn, length_verticesFrom]), append_append,
        directed_append, Outline.preorderAll, verticesFrom_append, Outline.numberedAll,
        List.flatMap_cons, List.map_append]
      rfl

/-- Each call gives the name of the next vertex, and the number of vertices goes up by the
size of the outline. -/
theorem Outline.calls_drawEach (outlines : List Outline) (graph : Graph) {before : Nat}
    (drawn : graph.vertices.size = before) :
    (drawEach outlines graph).1 = (List.range outlines.length).map fun place =>
      (vertexName (before + total (outlines.take place) + 1),
        before + total (outlines.take (place + 1))) := by
  induction outlines generalizing graph before with
  | nil => rfl
  | cons outline others induction =>
      simp only [drawEach, Outline.draw_eq outline graph drawn]
      have behind : (graph.append (verticesFrom before outline.preorder)
          ((outline.numbered before).descents.map (Descent.edge graph.directed))).vertices.size =
          before + outline.size := by
        rw [size_vertices_append, drawn, length_verticesFrom, Outline.size]
      rw [induction _ behind, behind, List.length_cons, List.range_succ_eq_map, List.map_cons,
        List.map_map]
      simp [Function.comp_def, vertex_numbered, total, Nat.add_assoc]

/-! ## Names -/

mutual

/-- The nodes of a numbered outline have one name after the other. -/
theorem Outline.vertices_numbered (outline : Outline) (before : Nat) :
    (outline.numbered before).preorder.map Outline.vertex =
      (List.range' (before + 1) outline.preorder.length).map vertexName := by
  cases outline with
  | node kind value relations =>
      rw [Outline.numbered, Outline.preorder, Outline.preorder, List.map_cons,
        Relation.vertices_numberedAll relations, List.length_cons, List.range'_succ,
        List.map_cons]
      rfl

theorem Relation.vertices_numbered (relation : Relation) (before : Nat) :
    (relation.numbered before).preorder.map Outline.vertex =
      (List.range' (before + 1) relation.preorder.length).map vertexName := by
  cases relation with
  | child name node => exact Outline.vertices_numbered node before
  | children name nodes => exact Outline.vertices_numberedAll nodes before

theorem Relation.vertices_numberedAll (relations : List Relation) (before : Nat) :
    (Relation.preorderAll (Relation.numberedAll before relations)).map Outline.vertex =
      (List.range' (before + 1) (Relation.preorderAll relations).length).map vertexName := by
  cases relations with
  | nil => rfl
  | cons relation others =>
      have first := Relation.vertices_numbered relation before
      have behind := Relation.vertices_numberedAll others (before + relation.preorder.length)
      calc
        (Relation.preorderAll (Relation.numberedAll before (relation :: others))).map
          Outline.vertex
        _ = (relation.numbered before).preorder.map Outline.vertex ++
            (Relation.preorderAll (Relation.numberedAll (before + relation.preorder.length)
              others)).map Outline.vertex := by
          rw [Relation.numberedAll, Relation.preorderAll, List.map_append]
        _ = (List.range' (before + 1) (relation.preorder.length +
              (Relation.preorderAll others).length)).map vertexName := by
          rw [first, behind, ← List.range'_append_1, List.map_append, Nat.add_right_comm]
        _ = (List.range' (before + 1)
              (Relation.preorderAll (relation :: others)).length).map vertexName := by
          rw [Relation.preorderAll, List.length_append]

theorem Outline.vertices_numberedAll (nodes : List Outline) (before : Nat) :
    (Outline.preorderAll (Outline.numberedAll before nodes)).map Outline.vertex =
      (List.range' (before + 1) (Outline.preorderAll nodes).length).map vertexName := by
  cases nodes with
  | nil => rfl
  | cons node others =>
      have first := Outline.vertices_numbered node before
      have behind := Outline.vertices_numberedAll others (before + node.preorder.length)
      calc
        (Outline.preorderAll (Outline.numberedAll before (node :: others))).map Outline.vertex
        _ = (node.numbered before).preorder.map Outline.vertex ++
            (Outline.preorderAll (Outline.numberedAll (before + node.preorder.length)
              others)).map Outline.vertex := by
          rw [Outline.numberedAll, Outline.preorderAll, List.map_append]
          rfl
        _ = (List.range' (before + 1) (node.preorder.length +
              (Outline.preorderAll others).length)).map vertexName := by
          rw [first, behind, ← List.range'_append_1, List.map_append, Nat.add_right_comm]
        _ = (List.range' (before + 1)
              (Outline.preorderAll (node :: others)).length).map vertexName := by
          rw [Outline.preorderAll, List.length_append]

end

mutual

theorem Outline.blank_numbered (outline : Outline) (before : Nat) :
    (outline.numbered before).blank = outline.blank := by
  cases outline with
  | node kind value relations =>
      rw [Outline.numbered, Outline.blank, Outline.blank,
        Relation.blankAll_numberedAll relations]

theorem Relation.blank_numbered (relation : Relation) (before : Nat) :
    (relation.numbered before).blank = relation.blank := by
  cases relation with
  | child name node =>
      rw [Relation.numbered, Relation.blank, Relation.blank, Outline.blank_numbered node]
  | children name nodes =>
      rw [Relation.numbered, Relation.blank, Relation.blank,
        Outline.blankAll_numberedAll nodes]

theorem Relation.blankAll_numberedAll (relations : List Relation) (before : Nat) :
    Relation.blankAll (Relation.numberedAll before relations) = Relation.blankAll relations := by
  cases relations with
  | nil => rfl
  | cons relation others =>
      rw [Relation.numberedAll, Relation.blankAll, Relation.blankAll,
        Relation.blank_numbered relation, Relation.blankAll_numberedAll others]

theorem Outline.blankAll_numberedAll (nodes : List Outline) (before : Nat) :
    Outline.blankAll (Outline.numberedAll before nodes) = Outline.blankAll nodes := by
  cases nodes with
  | nil => rfl
  | cons node others =>
      rw [Outline.numberedAll, Outline.blankAll, Outline.blankAll,
        Outline.blank_numbered node, Outline.blankAll_numberedAll others]

end

theorem Graph.vertexName_injective : Function.Injective vertexName := by
  intro number other same
  have digits : Nat.toDigits 10 number = Nat.toDigits 10 other :=
    String.ofList_injective ((String.append_right_inj "node").mp same)
  rw [← Nat.ofDigitChars_ten_toDigits (n := number), digits, Nat.ofDigitChars_ten_toDigits]

theorem Graph.names_verticesFrom (before : Nat) (nodes : List Outline) :
    (verticesFrom before nodes).map Vertex.name =
      (List.range' (before + 1) nodes.length).map vertexName := by
  rw [List.range'_succ_left, ← List.zipIdx_map_snd before nodes, verticesFrom, List.map_map,
    List.map_map, List.map_map]
  rfl

theorem Graph.labels_verticesFrom (before : Nat) (nodes : List Outline) :
    (verticesFrom before nodes).map Vertex.label = nodes.map fun node => some node.label := by
  conv_rhs => rw [← List.zipIdx_map_fst before nodes]
  rw [verticesFrom, List.map_map, List.map_map]
  rfl

theorem Outline.total_numberedAll (outlines : List Outline) (before : Nat) :
    total (Outline.numberedAll before outlines) = total outlines := by
  have lengths := congrArg List.length (Outline.vertices_numberedAll outlines before)
  rwa [List.length_map, List.length_map, List.length_range', length_preorderAll,
    length_preorderAll] at lengths

theorem Outline.length_numberedAll (outlines : List Outline) (before : Nat) :
    (Outline.numberedAll before outlines).length = outlines.length := by
  induction outlines generalizing before with
  | nil => rfl
  | cons outline others induction =>
      rw [Outline.numberedAll, List.length_cons, List.length_cons, induction]

theorem Outline.nodup_vertices (outlines : List Outline) (before : Nat) :
    ((Outline.numberedAll before outlines).flatMap Outline.vertices).Nodup := by
  have names := Outline.vertices_numberedAll outlines before
  rw [preorderAll_eq_flatMap, List.map_flatMap] at names
  have different : (List.range' (before + 1) (Outline.preorderAll outlines).length).Nodup :=
    List.nodup_range' 1
  exact names ▸ different.map vertexName_injective

/-- The ends of the edge for a descent are in the outline. -/
theorem Outline.ends_of_mem_descents {outline : Outline} {descent : Descent}
    (member : descent ∈ outline.descents) :
    descent.parent.vertex ∈ outline.vertices ∧ descent.child.vertex ∈ outline.vertices := by
  constructor
  · obtain ⟨node, inside, step⟩ := List.mem_flatMap.mp (outline.descents_perm.mem_iff.mp member)
    obtain ⟨branch, -, rfl⟩ := List.mem_map.mp step
    exact List.mem_map_of_mem inside
  · have entered := List.mem_append_left [outline] (List.mem_map_of_mem (f := Descent.child) member)
    rw [outline.children_descents] at entered
    exact List.mem_map_of_mem (outline.postorder_perm.mem_iff.mp entered)

/-- An edge has both ends in the outline of its descent, and none in the others. -/
theorem Outline.ends_in_same {outlines : List Outline} {outline other : Outline}
    {descent : Descent} (distinct : (outlines.flatMap Outline.vertices).Nodup)
    (listed : outline ∈ outlines) (member : descent ∈ outline.descents)
    (otherListed : other ∈ outlines) :
    descent.parent.vertex ∈ other.vertices ↔ descent.child.vertex ∈ other.vertices := by
  obtain ⟨source, target⟩ := ends_of_mem_descents member
  by_cases same : outline = other
  · subst same
    exact iff_of_true source target
  · have symmetric : Std.Symm (Function.onFun List.Disjoint Outline.vertices) :=
      ⟨fun _ _ apart _ here there => apart there here⟩
    have apart := (List.nodup_flatMap.mp distinct).2.forall listed otherListed same
    exact iff_of_false (apart source) (apart target)

/-- There is a descent to every node that is not topmost. -/
theorem Outline.length_flatMap_descents (outlines : List Outline) :
    (outlines.flatMap Outline.descents).length + outlines.length = total outlines := by
  induction outlines with
  | nil => rfl
  | cons outline others induction =>
      rw [List.flatMap_cons, List.length_append, List.length_cons, total,
        ← outline.length_descents, ← induction]
      omega

/-! ## The whole graph -/

/-- A graph shows outlines if it has the vertices of their nodes and the edges of their
descents. -/
theorem Graph.shows_of_eq {graph : Graph} {outlines : List Outline}
    (vertices : graph.vertices.toList = verticesFrom 0 (Outline.preorderAll outlines))
    (edges : graph.edges.toList =
      ((Outline.numberedAll 0 outlines).flatMap Outline.descents).map
        (Descent.edge graph.directed)) :
    graph.Shows outlines := by
  have names : graph.vertices.toList.map Vertex.name =
      (List.range' 1 (total outlines)).map vertexName := by
    rw [vertices, names_verticesFrom, length_preorderAll]
  have numbering : (Outline.numberedAll 0 outlines).flatMap Outline.vertices =
      (List.range' 1 (total outlines)).map vertexName := by
    rw [← length_preorderAll, ← Outline.vertices_numberedAll outlines 0, preorderAll_eq_flatMap,
      List.map_flatMap]
    rfl
  have distinct := Outline.nodup_vertices outlines 0
  exact {
    names := names
    distinct := by rwa [names, ← numbering]
    numbering := numbering.trans names.symm
    labels := by rw [vertices, labels_verticesFrom, preorderAll_eq_flatMap]
    count := by
      rw [← Array.length_toList, edges, List.length_map, ← total_numberedAll outlines 0,
        ← length_flatMap_descents, length_numberedAll]
    edges := by
      rw [edges, List.flatMap_assoc]
      exact (List.Perm.flatMap_left _ fun outline _ => outline.descents_perm).map _
    targets := by
      rw [edges, List.map_map, List.map_flatMap]
      congr 1
      funext outline
      rw [← outline.children_descents, List.dropLast_concat, List.map_map]
      rfl
    apart := by
      intro edge member other otherListed
      rw [← Array.mem_toList_iff, edges] at member
      obtain ⟨descent, inside, rfl⟩ := List.mem_map.mp member
      obtain ⟨outline, listed, inside⟩ := List.mem_flatMap.mp inside
      exact ends_in_same distinct listed inside otherListed
    arrows := by
      intro edge member
      rw [← Array.mem_toList_iff, edges] at member
      obtain ⟨descent, -, rfl⟩ := List.mem_map.mp member
      rfl }

theorem Outline.drawn_eq (outline : Outline) (name : String) (directed : Bool) :
    outline.drawn name directed =
      ⟨name, directed, (verticesFrom 0 outline.preorder).toArray,
        ((outline.numbered 0).descents.map (Descent.edge directed)).toArray⟩ := by
  rw [drawn, Outline.draw_eq outline (empty name directed) rfl]
  simp [append, empty]

/-- The graph of outlines that are drawn one after the other. -/
theorem Outline.drawEach_empty (outlines : List Outline) (name : String) (directed : Bool) :
    (drawEach outlines (empty name directed)).2 =
      ⟨name, directed, (verticesFrom 0 (Outline.preorderAll outlines)).toArray,
        (((Outline.numberedAll 0 outlines).flatMap Outline.descents).map
          (Descent.edge directed)).toArray⟩ := by
  rw [Outline.drawEach_eq outlines (empty name directed) rfl]
  simp [append, empty]

/-- Outlines that are drawn one after the other are shown as they are.  Every call gives the
name of the next vertex and leaves as many vertices as there are nodes so far; the numbering
changes nothing but values; and the arrows are those of the heading. -/
theorem Outline.shows_drawEach (outlines : List Outline) (name : String) (directed : Bool) :
    let graph := (drawEach outlines (empty name directed)).2
    graph.Shows outlines ∧ graph.name = name ∧ graph.directed = directed ∧
      ((drawEach outlines (empty name directed)).1 =
        (List.range outlines.length).map fun place =>
          (vertexName (1 + total (outlines.take place)), total (outlines.take (place + 1)))) ∧
      Outline.blankAll (Outline.numberedAll 0 outlines) = Outline.blankAll outlines ∧
      (∃ rest, graph.render = (if directed then "digraph " else "graph ") ++ rest) ∧
      ∀ edge ∈ graph.edges, ∃ rest,
        edge.render = edge.source ++ (if directed then " -> " else " -- ") ++ rest := by
  intro graph
  have whole : graph = _ := Outline.drawEach_empty outlines name directed
  have arrow : graph.directed = directed := by rw [whole]
  have shown : graph.Shows outlines :=
    shows_of_eq (by rw [whole]) (by rw [arrow, whole])
  refine ⟨shown, by rw [whole], arrow, ?_, Outline.blankAll_numberedAll outlines 0, ?_, ?_⟩
  · have nothing : (empty name directed).vertices.size = 0 := rfl
    rw [Outline.calls_drawEach outlines (empty name directed) nothing]
    simp [Nat.add_comm]
  · rw [Graph.render, arrow, String.append_assoc, String.append_assoc, String.append_assoc,
      String.append_assoc]
    exact ⟨_, rfl⟩
  · intro edge member
    rw [Edge.render, shown.arrows edge member, arrow, String.append_assoc]
    exact ⟨_, rfl⟩

/-- The edge to a node stands behind those below it, and the numbers run on. -/
example :
    (drawEach
      [.node .branch none [.child "x" (.node .loop none [.children "y" [.leaf .ident "a"]])],
        .node .loop none [.children "x" [], .children "y" [.leaf .int "1", .leaf .ident "a"]]]
      (empty "g" true)).2.edges.toList.map (fun edge => (edge.source, edge.target)) =
      [("node2", "node3"), ("node1", "node2"), ("node4", "node5"), ("node4", "node6")] :=
  rfl

end SheetLang
