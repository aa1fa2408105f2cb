import SheetLang.Graph.Visualizer
import SheetLang.Proofs.Graph.Drawing

/-!
# Drawing with a counter of 32 bits

As long as there are numbers left, a visualizer draws what is drawn with the number of
vertices for a counter.  A counter that stops does so exactly where the numbers end, and one
that begins again does the same as long as the other has not stopped.
-/

namespace SheetLang

open Graph Outline

variable {report : String}

/-! ## Steps that may stop -/

/-- What stops at some point has not stopped before, and goes on from there. -/
theorem ite_ok_bind {α β : Type} {near far : Prop} [Decidable near] [Decidable far] {value : α}
    {result : β} {next : α → Except String β} (before : far → near)
    (behind : near → next value = if far then .ok result else .error report) :
    ((if near then .ok value else .error report) >>= next) =
      if far then .ok result else .error report := by
  by_cases reached : near
  · rw [if_pos reached]
    exact behind reached
  · rw [if_neg reached, if_neg fun beyond => reached (before beyond)]
    rfl

theorem exists_of_bind_eq_ok {α β : Type} {first : Except String α} {next : α → Except String β}
    {result : β} (success : (first >>= next) = .ok result) :
    ∃ value, first = .ok value ∧ next value = .ok result := by
  cases first with
  | error reason => cases success
  | ok value => exact ⟨value, rfl, success⟩

/-! ## Vertices that were drawn -/

theorem Graph.size_addNode (graph : Graph) (label : String) :
    (graph.addNode label).2.vertices.size = graph.vertices.size + 1 := by
  simp [addNode, addVertex]

theorem Outline.size_draw (outline : Outline) (graph : Graph) :
    (outline.draw graph).2.vertices.size = graph.vertices.size + outline.preorder.length := by
  rw [outline.draw_eq graph rfl, size_vertices_append, length_verticesFrom]

theorem Relation.size_draw (parent : String) (relation : Relation) (graph : Graph) :
    (relation.draw parent graph).vertices.size =
      graph.vertices.size + relation.preorder.length := by
  have drawn := relation.draw_eq (.node .program (some parent) []) graph rfl
  rw [← length_verticesFrom graph.vertices.size relation.preorder, ← size_vertices_append]
  exact congrArg (·.vertices.size) drawn

namespace Visualizer

/-- The visualizer that has drawn this graph. -/
def showing (graph : Graph) : Visualizer :=
  ⟨UInt32.ofNat (graph.vertices.size + 1), graph⟩

/-- A vertex is added as long as there is a number for the next one. -/
theorem addVertex_showing {graph : Graph} (room : graph.vertices.size < UInt32.size - 1)
    (label : String) :
    (showing graph).addVertex (.stops report) label =
      if graph.vertices.size + 1 < UInt32.size - 1 then
        .ok ((graph.addNode label).1, showing (graph.addNode label).2)
      else .error report := by
  have number : (showing graph).counter.toNat = graph.vertices.size + 1 :=
    UInt32.toNat_ofNat_of_lt' (Nat.add_lt_of_lt_sub room)
  have added : showing (graph.addNode label).2 =
      ⟨(showing graph).counter + 1, (graph.addNode label).2⟩ := by
    rw [showing, size_addNode, UInt32.ofNat_add]
    rfl
  rw [addVertex, Overflow.next, number, added]
  refine ite_ok_bind Nat.add_lt_of_lt_sub fun more => ?_
  rw [if_pos (Nat.lt_sub_of_add_lt more)]
  rfl

end Visualizer

/-! ## A counter that stops -/

open Visualizer

mutual

/-- Drawing stops exactly if there are not enough numbers. -/
theorem Outline.visualize_stops (outline : Outline) (graph : Graph)
    (room : graph.vertices.size < UInt32.size - 1) :
    outline.visualize (.stops report) (showing graph) =
      if graph.vertices.size + outline.preorder.length < UInt32.size - 1 then
        .ok ((outline.draw graph).1, showing (outline.draw graph).2)
      else .error report := by
  cases outline with
  | node kind value relations =>
      rw [Outline.visualize, addVertex_showing room, Outline.preorder, List.length_cons,
        Nat.add_comm (Relation.preorderAll relations).length 1, ← Nat.add_assoc]
      refine ite_ok_bind (Nat.lt_of_le_of_lt (Nat.le_add_right _ _)) fun reached => ?_
      rw [← Graph.size_addNode graph (Outline.node kind value []).label] at reached ⊢
      have below := Relation.visualizeAll_stops
        (graph.addNode (Outline.node kind value []).label).1 relations _ reached
      dsimp only
      rw [below]
      exact ite_ok_bind id fun fits => (if_pos fits).symm

theorem Relation.visualize_stops (parent : String) (relation : Relation) (graph : Graph)
    (room : graph.vertices.size < UInt32.size - 1) :
    relation.visualize (.stops report) parent (showing graph) =
      if graph.vertices.size + relation.preorder.length < UInt32.size - 1 then
        .ok (showing (relation.draw parent graph))
      else .error report := by
  cases relation with
  | child label node =>
      rw [Relation.visualize, Outline.visualize_stops node graph room]
      exact ite_ok_bind id fun fits => (if_pos fits).symm
  | children label nodes => exact Outline.visualizeAll_stops parent label nodes graph room

theorem Relation.visualizeAll_stops (parent : String) (relations : List Relation) (graph : Graph)
    (room : graph.vertices.size < UInt32.size - 1) :
    Relation.visualizeAll (.stops report) parent relations (showing graph) =
      if graph.vertices.size + (Relation.preorderAll relations).length < UInt32.size - 1 then
        .ok (showing (Relation.drawAll parent relations graph))
      else .error report := by
  cases relations with
  | nil => exact (if_pos room).symm
  | cons relation others =>
      rw [Relation.visualizeAll, Relation.visualize_stops parent relation graph room,
        Relation.preorderAll, List.length_append, ← Nat.add_assoc]
      refine ite_ok_bind (Nat.lt_of_le_of_lt (Nat.le_add_right _ _)) fun reached => ?_
      rw [← Relation.size_draw parent relation graph] at reached ⊢
      exact Relation.visualizeAll_stops parent others _ reached

theorem Outline.visualizeAll_stops (parent label : String) (nodes : List Outline) (graph : Graph)
    (room : graph.vertices.size < UInt32.size - 1) :
    Outline.visualizeAll (.stops report) parent label nodes (showing graph) =
      if graph.vertices.size + (Outline.preorderAll nodes).length < UInt32.size - 1 then
        .ok (showing (Outline.drawAll parent label nodes graph))
      else .error report := by
  cases nodes with
  | nil => exact (if_pos room).symm
  | cons node others =>
      rw [Outline.visualizeAll, Outline.visualize_stops node graph room,
        Outline.preorderAll, List.length_append, ← Nat.add_assoc]
      refine ite_ok_bind (Nat.lt_of_le_of_lt (Nat.le_add_right _ _)) fun reached => ?_
      rw [← Outline.size_draw node graph] at reached ⊢
      exact Outline.visualizeAll_stops parent label others
        ((node.draw graph).2.connect parent (node.draw graph).1 label) reached

end

/-! ## Any counter -/

theorem Overflow.next_of_stops {counter number : UInt32}
    (success : (stops report).next counter = .ok number) (overflow : Overflow) :
    overflow.next counter = .ok number := by
  have room : counter.toNat + 1 < UInt32.size := by
    by_contra full
    rw [next, if_neg full] at success
    cases success
  rw [next, if_pos room] at success
  cases overflow with
  | wraps => exact success
  | stops other =>
      rw [next, if_pos room]
      exact success

theorem Visualizer.addVertex_of_stops {label : String} {visualizer : Visualizer}
    {result : String × Visualizer}
    (success : visualizer.addVertex (.stops report) label = .ok result) (overflow : Overflow) :
    visualizer.addVertex overflow label = .ok result := by
  obtain ⟨number, counted, added⟩ := exists_of_bind_eq_ok success
  rw [addVertex, Overflow.next_of_stops counted overflow]
  exact added

mutual

/-- What a counter draws that would have stopped at the end is drawn by any counter. -/
theorem Outline.visualize_of_stops (overflow : Overflow) (outline : Outline)
    {visualizer : Visualizer} {result : String × Visualizer}
    (success : outline.visualize (.stops report) visualizer = .ok result) :
    outline.visualize overflow visualizer = .ok result := by
  cases outline with
  | node kind value relations =>
      rw [Outline.visualize] at success ⊢
      obtain ⟨⟨name, added⟩, vertex, below⟩ := exists_of_bind_eq_ok success
      obtain ⟨last, drawn, same⟩ := exists_of_bind_eq_ok below
      rw [Visualizer.addVertex_of_stops vertex overflow]
      dsimp only [bind, Except.bind]
      rw [Relation.visualizeAll_of_stops overflow name relations drawn]
      exact same

theorem Relation.visualize_of_stops (overflow : Overflow) (parent : String) (relation : Relation)
    {visualizer last : Visualizer}
    (success : relation.visualize (.stops report) parent visualizer = .ok last) :
    relation.visualize overflow parent visualizer = .ok last := by
  cases relation with
  | child label node =>
      rw [Relation.visualize] at success ⊢
      obtain ⟨result, drawn, same⟩ := exists_of_bind_eq_ok success
      rw [Outline.visualize_of_stops overflow node drawn]
      exact same
  | children label nodes =>
      exact Outline.visualizeAll_of_stops overflow parent label nodes success

theorem Relation.visualizeAll_of_stops (overflow : Overflow) (parent : String)
    (relations : List Relation) {visualizer last : Visualizer}
    (success : Relation.visualizeAll (.stops report) parent relations visualizer = .ok last) :
    Relation.visualizeAll overflow parent relations visualizer = .ok last := by
  cases relations with
  | nil => exact success
  | cons relation others =>
      rw [Relation.visualizeAll] at success ⊢
      obtain ⟨next, drawn, behind⟩ := exists_of_bind_eq_ok success
      rw [Relation.visualize_of_stops overflow parent relation drawn]
      exact Relation.visualizeAll_of_stops overflow parent others behind

theorem Outline.visualizeAll_of_stops (overflow : Overflow) (parent label : String)
    (nodes : List Outline) {visualizer last : Visualizer}
    (success : Outline.visualizeAll (.stops report) parent label nodes visualizer = .ok last) :
    Outline.visualizeAll overflow parent label nodes visualizer = .ok last := by
  cases nodes with
  | nil => exact success
  | cons node others =>
      rw [Outline.visualizeAll] at success ⊢
      obtain ⟨result, drawn, behind⟩ := exists_of_bind_eq_ok success
      rw [Outline.visualize_of_stops overflow node drawn]
      exact Outline.visualizeAll_of_stops overflow parent label others behind

end

mutual

theorem Outline.exists_visualize_wraps (outline : Outline) (visualizer : Visualizer) :
    ∃ result, outline.visualize .wraps visualizer = .ok result := by
  cases outline with
  | node kind value relations =>
      obtain ⟨last, drawn⟩ := Relation.exists_visualizeAll_wraps
        (vertexName visualizer.counter.toNat) relations
        ⟨visualizer.counter + 1, visualizer.graph.addVertex ⟨vertexName visualizer.counter.toNat,
          some (Outline.node kind value []).label⟩⟩
      refine ⟨(vertexName visualizer.counter.toNat, last), ?_⟩
      rw [Outline.visualize, Visualizer.addVertex, Overflow.next]
      dsimp only [bind, Except.bind, pure, Except.pure]
      rw [drawn]

theorem Relation.exists_visualize_wraps (parent : String) (relation : Relation)
    (visualizer : Visualizer) :
    ∃ last, relation.visualize .wraps parent visualizer = .ok last := by
  cases relation with
  | child label node =>
      obtain ⟨result, drawn⟩ := Outline.exists_visualize_wraps node visualizer
      rw [Relation.visualize, drawn]
      exact ⟨_, rfl⟩
  | children label nodes => exact Outline.exists_visualizeAll_wraps parent label nodes visualizer

theorem Relation.exists_visualizeAll_wraps (parent : String) (relations : List Relation)
    (visualizer : Visualizer) :
    ∃ last, Relation.visualizeAll .wraps parent relations visualizer = .ok last := by
  cases relations with
  | nil => exact ⟨visualizer, rfl⟩
  | cons relation others =>
      obtain ⟨next, drawn⟩ := Relation.exists_visualize_wraps parent relation visualizer
      rw [Relation.visualizeAll, drawn]
      exact Relation.exists_visualizeAll_wraps parent others next

theorem Outline.exists_visualizeAll_wraps (parent label : String) (nodes : List Outline)
    (visualizer : Visualizer) :
    ∃ last, Outline.visualizeAll .wraps parent label nodes visualizer = .ok last := by
  cases nodes with
  | nil => exact ⟨visualizer, rfl⟩
  | cons node others =>
      obtain ⟨result, drawn⟩ := Outline.exists_visualize_wraps node visualizer
      rw [Outline.visualizeAll, drawn]
      exact Outline.exists_visualizeAll_wraps parent label others _

end

/-! ## Drawings from the first number on -/

theorem Visualizer.room_empty (name : String) (directed : Bool) :
    (empty name directed).vertices.size < UInt32.size - 1 :=
  (by decide : 0 < UInt32.size - 1)

theorem Outline.visualize_new_stops (outline : Outline) (name : String) (directed : Bool) :
    outline.visualize (.stops report) (new name directed) =
      if outline.size < UInt32.size - 1 then
        .ok (vertexName 1, showing (outline.drawn name directed))
      else .error report := by
  have none : (empty name directed).vertices.size = 0 := rfl
  have root : (outline.draw (empty name directed)).1 = vertexName 1 := by
    rw [outline.draw_eq _ none, outline.vertex_numbered]
  have drawn : outline.visualize (.stops report) (new name directed) = _ :=
    outline.visualize_stops (empty name directed) (room_empty name directed)
  rw [drawn, none, Nat.zero_add, root]
  rfl

theorem Outline.visualize_new_stops_iff {outline : Outline} {name : String} {directed : Bool}
    {result : String × Visualizer} :
    outline.visualize (.stops report) (new name directed) = .ok result ↔
      outline.size < UInt32.size - 1 ∧
        result = (vertexName 1, showing (outline.drawn name directed)) := by
  rw [outline.visualize_new_stops]
  by_cases fits : outline.size < UInt32.size - 1
  · rw [if_pos fits, Except.ok.injEq, and_iff_right fits, eq_comm]
  · rw [if_neg fits]
    exact iff_of_false (by simp) fun both => fits both.1

theorem Outline.visualize_new (outline : Outline) (name : String) (directed : Bool)
    (overflow : Overflow) (fits : outline.size < UInt32.size - 1) :
    outline.visualize overflow (new name directed) =
      .ok (vertexName 1, showing (outline.drawn name directed)) := by
  have drawn : outline.visualize (.stops "") (new name directed) = _ :=
    outline.visualize_new_stops name directed
  rw [if_pos fits] at drawn
  exact Outline.visualize_of_stops overflow outline drawn

/-! ## Several outlines -/

theorem Visualizer.visualizeEach_stops (outlines : List Outline) (graph : Graph)
    (room : graph.vertices.size < UInt32.size - 1) :
    visualizeEach (.stops report) outlines (showing graph) =
      if graph.vertices.size + total outlines < UInt32.size - 1 then
        .ok ((drawEach outlines graph).1, showing (drawEach outlines graph).2)
      else .error report := by
  induction outlines generalizing graph with
  | nil => exact (if_pos room).symm
  | cons outline others induction =>
      rw [visualizeEach, Outline.visualize_stops outline graph room, total, Outline.size,
        ← Nat.add_assoc]
      refine ite_ok_bind (Nat.lt_of_le_of_lt (Nat.le_add_right _ _)) fun reached => ?_
      rw [← Outline.size_draw outline graph] at reached ⊢
      dsimp only
      rw [induction _ reached]
      exact ite_ok_bind id fun fits => (if_pos fits).symm

theorem Visualizer.visualizeEach_of_stops (overflow : Overflow) (outlines : List Outline)
    {visualizer : Visualizer} {result : List (String × Nat) × Visualizer}
    (success : visualizeEach (.stops report) outlines visualizer = .ok result) :
    visualizeEach overflow outlines visualizer = .ok result := by
  induction outlines generalizing visualizer result with
  | nil => exact success
  | cons outline others induction =>
      rw [visualizeEach] at success ⊢
      obtain ⟨⟨name, next⟩, drawn, behind⟩ := exists_of_bind_eq_ok success
      obtain ⟨⟨calls, last⟩, more, same⟩ := exists_of_bind_eq_ok behind
      rw [Outline.visualize_of_stops overflow outline drawn]
      dsimp only [bind, Except.bind]
      rw [induction more]
      exact same

/-- As long as there are numbers left, outlines that are drawn one after the other are shown as
they are.  Every call gives the name of the next vertex and leaves as many vertices as there
are nodes so far; the numbering changes nothing but values; and the arrows are those of the
heading. -/
theorem Visualizer.shows_visualizeEach (overflow : Overflow) (outlines : List Outline)
    (name : String) (directed : Bool) (fits : total outlines < UInt32.size - 1) :
    ∃ calls visualizer,
      visualizeEach overflow outlines (new name directed) = .ok (calls, visualizer) ∧
      (calls = (List.range outlines.length).map fun place =>
        (vertexName (1 + total (outlines.take place)), total (outlines.take (place + 1)))) ∧
      visualizer.counter.toNat = total outlines + 1 ∧
      visualizer.graph.Shows outlines ∧ visualizer.graph.name = name ∧
      visualizer.graph.directed = directed ∧
      Outline.blankAll (Outline.numberedAll 0 outlines) = Outline.blankAll outlines ∧
      (∃ rest, visualizer.graph.render =
        (if directed then "digraph " else "graph ") ++ rest) ∧
      ∀ edge ∈ visualizer.graph.edges, ∃ rest,
        edge.render = edge.source ++ (if directed then " -> " else " -- ") ++ rest := by
  have drawn : visualizeEach (.stops "") outlines (new name directed) = _ :=
    visualizeEach_stops outlines (empty name directed) (room_empty name directed)
  have none : (empty name directed).vertices.size = 0 := rfl
  rw [none, Nat.zero_add, if_pos fits] at drawn
  obtain ⟨shown, named, arrow, calls, rest⟩ := Outline.shows_drawEach outlines name directed
  refine ⟨_, _, visualizeEach_of_stops overflow outlines drawn, calls, ?_, shown, named, arrow,
    rest⟩
  have vertices : (drawEach outlines (empty name directed)).2.vertices.size = total outlines := by
    rw [drawEach_empty, List.size_toArray, length_verticesFrom, length_preorderAll]
  rw [showing, vertices]
  exact UInt32.toNat_ofNat_of_lt' (Nat.add_lt_of_lt_sub fits)

/-- The numbers run on from one outline to the next, through relations to one node and to lists
of nodes, and the edge to a node stands behind those below it. -/
theorem Visualizer.shows_visualizeEach_two :
    let first : Outline :=
      .node .branch none [.child "x" (.node .loop none [.children "y" [.leaf .ident "a"]])]
    let second : Outline :=
      .node .loop none [.children "x" [], .children "y" [.leaf .int "1", .leaf .ident "a\n"]]
    ∃ calls visualizer,
      visualizeEach (.stops "overflow") [first, second] (new "g" false) =
        .ok (calls, visualizer) ∧
      calls = [("node1", 3), ("node4", 6)] ∧ visualizer.counter.toNat = 7 ∧
      visualizer.graph.vertices.toList.map Vertex.label =
        [some "If", some "While", some "Ident:a", some "While", some "Int:1", some "Ident:a\n"] ∧
      visualizer.graph.edges.toList.map Edge.target = ["node3", "node2", "node5", "node6"] ∧
      ∃ rest, visualizer.graph.render = "graph " ++ rest := by
  intro first second
  obtain ⟨calls, visualizer, drawn, called, counter, shown, -, -, -, heading, -⟩ :=
    shows_visualizeEach (.stops "overflow") [first, second] "g" false (by decide)
  refine ⟨calls, visualizer, drawn, called.trans ?_, counter, shown.labels, ?_, heading⟩
  · decide
  · exact shown.targets.trans (by decide)

end SheetLang
