import SheetLang.Proofs.CommandLine.Flags
import SheetLang.Proofs.Graph.Quoting
import SheetLang.Proofs.Graph.Visualizer
import SheetLang.Proofs.Outline.Reading

/-!
# Outlines read back from their drawings

The text of a drawing has one line for every vertex and one for every edge.  The labels give
the kinds and values of the nodes, in their order; the edges give the names of the relations
and show where the nodes below a node end.
-/

namespace SheetLang

open Graph Outline

/-! ## Labels -/

theorem valueText_injective : Function.Injective valueText := by
  intro value other same
  cases value <;> cases other <;> simp_all [valueText, String.toList_inj]

theorem Outline.toList_label (outline : Outline) :
    outline.label.toList = outline.kind.name.toList ++ valueText outline.value? := by
  obtain ⟨kind, value, relations⟩ := outline
  cases value <;> simp [label, Outline.kind, value?, valueText, String.toList_append]

/-- A label tells the kind and the value: kinds are words, and values stand behind a colon. -/
theorem Outline.label_inj {outline other : Outline} (same : outline.label = other.label) :
    outline.kind = other.kind ∧ outline.value? = other.value? := by
  have texts := congrArg String.toList same
  rw [toList_label, toList_label] at texts
  have stops (value : Option String) :
      ∀ character ∈ (valueText value).head?, character.isAlpha = false := by
    cases value <;> simp [valueText]
  obtain ⟨names, values⟩ := append_inj_of_boundary Char.isAlpha
    (fun _ => Outline.Kind.isAlpha_of_mem_name) (fun _ => Outline.Kind.isAlpha_of_mem_name)
    (stops _) (stops _) texts
  exact ⟨Outline.Kind.name_injective (String.toList_injective names), valueText_injective values⟩

/-! ## Numbered branches -/

/-- The nodes below a node with names, when so many nodes have got theirs. -/
def Outline.numberedBranches (before : Nat) : List (String × Outline) → List (String × Outline)
  | [] => []
  | (name, below) :: others =>
    (name, below.numbered before) :: numberedBranches (before + below.size) others

theorem Outline.numberedBranches_append (before : Nat) (front back : List (String × Outline)) :
    numberedBranches before (front ++ back) =
      numberedBranches before front ++
        numberedBranches (before + (front.flatMap fun branch => branch.2.preorder).length)
          back := by
  induction front generalizing before with
  | nil => rfl
  | cons branch front induction =>
      rw [List.cons_append, numberedBranches, induction, numberedBranches, List.cons_append,
        List.flatMap_cons, List.length_append, ← Nat.add_assoc]
      rfl

theorem Outline.numberedAll_eq_numberedBranches (before : Nat) (name : String)
    (nodes : List Outline) :
    (Outline.numberedAll before nodes).map (fun node => (name, node)) =
      numberedBranches before (nodes.map fun node => (name, node)) := by
  induction nodes generalizing before with
  | nil => rfl
  | cons node others induction =>
      rw [Outline.numberedAll, List.map_cons, List.map_cons, numberedBranches, induction]

theorem Relation.members_numberedAll (before : Nat) (relations : List Relation) :
    (Relation.numberedAll before relations).flatMap Relation.members =
      numberedBranches before (relations.flatMap Relation.members) := by
  induction relations generalizing before with
  | nil => rfl
  | cons relation others induction =>
      rw [Relation.numberedAll, List.flatMap_cons, induction, List.flatMap_cons,
        numberedBranches_append, ← Relation.preorder_eq_flatMap]
      congr 1
      cases relation with
      | child name node => rfl
      | children name nodes => exact Outline.numberedAll_eq_numberedBranches before name nodes

theorem Outline.branches_numbered (outline : Outline) (before : Nat) :
    (outline.numbered before).branches = numberedBranches (before + 1) outline.branches := by
  cases outline with
  | node kind value relations => exact Relation.members_numberedAll (before + 1) relations

theorem Outline.size_numbered (outline : Outline) (before : Nat) :
    (outline.numbered before).size = outline.size := by
  have lengths := congrArg List.length (outline.vertices_numbered before)
  rwa [List.length_map, List.length_map, List.length_range'] at lengths

/-! ## What edges tell -/

/-- What a line tells of an edge: the name of the relation and where it leads. -/
def Outline.Descent.mark (descent : Descent) : String × String :=
  (descent.relation, descent.child.vertex)

/-- No edge leads to the topmost vertex. -/
theorem Outline.vertex_notMem_marks (outline : Outline) (before : Nat) :
    ∀ mark ∈ (outline.numbered before).descents.map Descent.mark,
      mark.2 ≠ vertexName (before + 1) := by
  have names : ((outline.numbered before).postorder.map Outline.vertex).Nodup := by
    rw [((outline.numbered before).postorder_perm.map Outline.vertex).nodup_iff,
      outline.vertices_numbered before]
    exact (List.nodup_range' 1).map vertexName_injective
  rw [← children_descents, List.map_append, List.nodup_append] at names
  intro mark member same
  obtain ⟨descent, inside, rfl⟩ := List.mem_map.mp member
  have below := List.mem_map_of_mem (f := Outline.vertex)
    (List.mem_map_of_mem (f := Descent.child) inside)
  refine names.2.2 _ below _ (List.mem_map_of_mem List.mem_cons_self) ?_
  exact same.trans (outline.vertex_numbered before).symm

/-- Labels and edges tell an outline, up to lists of relations. -/
def Outline.Told (outline : Outline) : Prop :=
  ∀ (other : Outline) (before : Nat),
    outline.preorder.map Outline.label = other.preorder.map Outline.label →
    (outline.numbered before).descents.map Descent.mark =
      (other.numbered before).descents.map Descent.mark →
    outline.flattened = other.flattened

/-- Labels and edges tell the nodes below a node: the first edge to the first of them is the
last edge that has to do with it. -/
theorem Outline.told_branches {branches others : List (String × Outline)} {before : Nat}
    {parent otherParent : Outline} (told : ∀ branch ∈ branches, branch.2.Told)
    (labels : (branches.flatMap fun branch => branch.2.preorder).map Outline.label =
      (others.flatMap fun branch => branch.2.preorder).map Outline.label)
    (marks : (entered parent (numberedBranches before branches)).map Descent.mark =
      (entered otherParent (numberedBranches before others)).map Descent.mark) :
    (branches.map fun (name, below) => Relation.child name below.flattened) =
      others.map fun (name, below) => Relation.child name below.flattened := by
  induction branches generalizing others before with
  | nil =>
      cases others with
      | nil => rfl
      | cons other others =>
          rw [List.flatMap_nil, List.flatMap_cons, preorder_eq_cons] at labels
          cases labels
  | cons branch branches induction =>
      cases others with
      | nil =>
          rw [List.flatMap_nil, List.flatMap_cons, preorder_eq_cons] at labels
          cases labels
      | cons other others =>
          obtain ⟨name, node⟩ := branch
          obtain ⟨otherName, otherNode⟩ := other
          obtain ⟨first, later⟩ := List.forall_mem_cons.mp told
          simp only [numberedBranches, entered_cons, List.map_append, List.map_cons] at marks
          obtain ⟨fronts, tails⟩ := append_inj_of_boundary
            (fun mark => mark.2 != vertexName (before + 1))
            (by simpa using node.vertex_notMem_marks before)
            (by simpa using otherNode.vertex_notMem_marks before)
            (by simp [Descent.mark, vertex_numbered]) (by simp [Descent.mark, vertex_numbered])
            marks
          obtain ⟨same, behind⟩ := List.cons.inj tails
          have sizes := congrArg List.length fronts
          rw [List.length_map, List.length_map, ← Nat.add_right_cancel_iff (n := 1),
            length_descents, length_descents, size_numbered, size_numbered] at sizes
          simp only [List.flatMap_cons, List.map_append] at labels
          obtain ⟨own, rest⟩ := List.append_inj labels (by simpa [size] using sizes)
          rw [← sizes] at behind
          have names : name = otherName := congrArg Prod.fst same
          have below : node.flattened = otherNode.flattened := first otherNode before own fronts
          simp only [List.map_cons, names, below, induction later rest behind]

theorem Outline.told (outline : Outline) : outline.Told := by
  induction outline using branch_induction with
  | step outline told =>
      intro other before labels marks
      rw [preorder_eq_cons, preorder_eq_cons other, List.map_cons, List.map_cons] at labels
      obtain ⟨first, later⟩ := List.cons.inj labels
      obtain ⟨kinds, values⟩ := label_inj first
      rw [descents_eq_entered, descents_eq_entered, branches_numbered, branches_numbered] at marks
      rw [flattened_eq_node, flattened_eq_node other, kinds, values,
        told_branches told later marks]

/-! ## Relations without lists -/

theorem Relation.drawAll_append (parent : String) (relations others : List Relation)
    (graph : Graph) :
    Relation.drawAll parent (relations ++ others) graph =
      Relation.drawAll parent others (Relation.drawAll parent relations graph) := by
  induction relations generalizing graph with
  | nil => rfl
  | cons relation relations induction =>
      rw [List.cons_append, Relation.drawAll, Relation.drawAll, induction]

mutual

/-- Lists of relations do not show in drawings. -/
theorem Outline.draw_flattened (outline : Outline) (graph : Graph) :
    outline.flattened.draw graph = outline.draw graph := by
  cases outline with
  | node kind value relations =>
      simp only [Outline.flattened, Outline.draw, Relation.drawAll_flattenedAll _ relations]

theorem Relation.drawAll_flattened (parent : String) (relation : Relation) (graph : Graph) :
    Relation.drawAll parent relation.flattened graph = relation.draw parent graph := by
  cases relation with
  | child name node =>
      simp only [Relation.flattened, Relation.drawAll, Relation.draw,
        Outline.draw_flattened node]
  | children name nodes => exact Outline.drawAll_flattenedAll parent name nodes graph

theorem Relation.drawAll_flattenedAll (parent : String) (relations : List Relation)
    (graph : Graph) :
    Relation.drawAll parent (Relation.flattenedAll relations) graph =
      Relation.drawAll parent relations graph := by
  cases relations with
  | nil => rfl
  | cons relation others =>
      rw [Relation.flattenedAll, Relation.drawAll_append, Relation.drawAll,
        Relation.drawAll_flattened parent relation,
        Relation.drawAll_flattenedAll parent others]

theorem Outline.drawAll_flattenedAll (parent name : String) (nodes : List Outline)
    (graph : Graph) :
    Relation.drawAll parent (Outline.flattenedAll name nodes) graph =
      Outline.drawAll parent name nodes graph := by
  cases nodes with
  | nil => rfl
  | cons node others =>
      simp only [Outline.flattenedAll, Relation.drawAll, Relation.draw, Outline.drawAll,
        Outline.draw_flattened node, Outline.drawAll_flattenedAll parent name others]

end

/-! ## Lines -/

/-- Names of vertices have no blanks, quotes or line breaks. -/
theorem Graph.notMem_vertexName {character : Char} (other : character.isAlphanum = false)
    (number : Nat) : character ∉ (vertexName number).toList := by
  have digits : (toString number).toList = Nat.toDigits 10 number := String.toList_ofList
  rw [vertexName, String.toList_append, digits]
  intro member
  rcases List.mem_append.mp member with word | digit
  · have letters : "node".toList.all Char.isAlphanum = true := by decide
    have letter := List.all_eq_true.mp letters character word
    rw [other] at letter
    cases letter
  · have plain := Nat.isDigit_of_mem_toDigits (by decide) (by decide) digit
    rw [Char.isAlphanum, plain, Bool.or_true] at other
    cases other

theorem Graph.quotes_vertex (number : Nat) (label : String) :
    Quotes ("\t" ++ Vertex.render ⟨vertexName number, some label⟩) label := by
  rw [Vertex.render, ← String.append_assoc]
  apply quotes_renderLabel
  · simp [String.toList_append, notMem_vertexName]
  · simp [String.toList_append, notMem_vertexName]

theorem Graph.quotes_edge (number below : Nat) (label : String) (directed : Bool) :
    Quotes ("\t" ++ Edge.render ⟨vertexName number, vertexName below, some label, directed⟩)
      label := by
  rw [Edge.render, ← String.append_assoc, ← String.append_assoc, ← String.append_assoc]
  apply quotes_renderLabel
  · cases directed <;> simp [String.toList_append, notMem_vertexName]
  · cases directed <;> simp [String.toList_append, notMem_vertexName]

/-- What the line of an edge tells: its label, and the name that is the third word. -/
def Graph.readEdge (line : String) : String × String :=
  ((readLabel? line).getD "", String.ofList ((line.toList.splitOn ' ')[2]?.getD []))

theorem Graph.readEdge_edge (number below : Nat) (label : String) (directed : Bool) :
    readEdge ("\t" ++ Edge.render ⟨vertexName number, vertexName below, some label, directed⟩) =
      (label, vertexName below) := by
  have read := (quotes_edge number below label directed).read
  have blankless (number : Nat) : ' ' ∉ (vertexName number).toList :=
    notMem_vertexName (by decide) number
  have source : ' ' ∉ '\t' :: (vertexName number).toList := by simp [blankless]
  obtain ⟨arrow, plain, words⟩ : ∃ arrow : List Char, ' ' ∉ arrow ∧
      (if directed then " -> " else " -- ").toList = ' ' :: (arrow ++ [' ']) := by
    cases directed
    · exact ⟨['-', '-'], by decide, rfl⟩
    · exact ⟨['-', '>'], by decide, rfl⟩
  have whole : ("\t" ++ Edge.render
      ⟨vertexName number, vertexName below, some label, directed⟩).toList =
      ('\t' :: (vertexName number).toList) ++ ' ' :: (arrow ++ ' ' ::
        ((vertexName below).toList ++ ' ' ::
          ("[ label=\"" ++ escape label ++ "\" ];").toList)) := by
    rw [Edge.render, String.toList_append, String.toList_append, String.toList_append,
      String.toList_append, words]
    simp [renderLabel, String.toList_append]
  rw [readEdge, read, whole, List.splitOn_append_cons_self, List.splitOn_append_cons_self,
    List.splitOn_append_cons_self, List.splitOn_eq_singleton source,
    List.splitOn_eq_singleton plain, List.splitOn_eq_singleton (blankless below)]
  simp

/-- The text of a graph is its heading, the lines of vertices and edges, and a brace. -/
theorem Graph.linesOf_render {graph : Graph}
    (single : ∀ text ∈ graph.lines, '\n' ∉ text.toList) :
    CommandLine.linesOf graph.render =
      CommandLine.linesOf graph.heading ++ (graph.lines ++ ["\x7d"]) := by
  have whole : graph.render = graph.heading ++ "\n" ++
      (String.join (graph.lines.map CommandLine.line) ++ "\x7d") := by
    have ending : " \x7b\n" = " \x7b" ++ "\n" := rfl
    rw [Graph.render, heading, lines, List.map_append, String.join_append, List.map_map,
      List.map_map, ending]
    simp only [String.append_assoc]
    rfl
  have alone : graph.lines.flatMap CommandLine.linesOf = graph.lines := by
    rw [List.flatMap_congr fun text member =>
      CommandLine.linesOf_of_newline_notMem (single text member)]
    exact List.flatMap_singleton' graph.lines
  have brace : CommandLine.linesOf "\x7d" = ["\x7d"] := by decide
  calc
    CommandLine.linesOf graph.render
    _ = CommandLine.linesOf graph.heading ++
        CommandLine.linesOf (String.join (graph.lines.map CommandLine.line) ++ "\x7d") := by
      rw [whole, CommandLine.linesOf_append_newline]
    _ = CommandLine.linesOf graph.heading ++
        (graph.lines.flatMap CommandLine.linesOf ++ CommandLine.linesOf "\x7d") := by
      rw [CommandLine.linesOf_join_append]
    _ = CommandLine.linesOf graph.heading ++ (graph.lines ++ ["\x7d"]) := by
      rw [alone, brace]

/-! ## Drawings -/

/-- The lines of vertices tell the labels. -/
theorem Outline.readLabel?_vertices (nodes : List Outline) (before : Nat) :
    (verticesFrom before nodes).map (fun vertex => readLabel? ("\t" ++ vertex.render)) =
      nodes.map fun node => some node.label := by
  rw [← labels_verticesFrom before nodes]
  refine List.map_congr_left fun vertex member => ?_
  obtain ⟨⟨node, place⟩, -, rfl⟩ := List.mem_map.mp member
  exact (quotes_vertex (place + 1) node.label).read

theorem Outline.exists_vertexName {outline : Outline} {before : Nat} {name : String}
    (member : name ∈ (outline.numbered before).vertices) : ∃ number, name = vertexName number := by
  rw [vertices, vertices_numbered outline before] at member
  obtain ⟨number, -, rfl⟩ := List.mem_map.mp member
  exact ⟨number, rfl⟩

theorem Outline.exists_edge {outline : Outline} {before : Nat} {descent : Descent}
    (member : descent ∈ (outline.numbered before).descents) (directed : Bool) :
    ∃ number below, descent.edge directed =
      ⟨vertexName number, vertexName below, some descent.relation, directed⟩ := by
  obtain ⟨source, target⟩ := ends_of_mem_descents member
  obtain ⟨number, source⟩ := exists_vertexName source
  obtain ⟨below, target⟩ := exists_vertexName target
  exact ⟨number, below, by rw [Descent.edge, source, target]⟩

/-- The lines of edges tell the names of relations and where they lead. -/
theorem Outline.readEdge_descents (outline : Outline) (before : Nat) (directed : Bool) :
    (outline.numbered before).descents.map
        (fun descent => readEdge ("\t" ++ (descent.edge directed).render)) =
      (outline.numbered before).descents.map Descent.mark := by
  refine List.map_congr_left fun descent member => ?_
  obtain ⟨number, below, shape⟩ := exists_edge member directed
  have target : descent.child.vertex = vertexName below := congrArg Edge.target shape
  rw [shape, readEdge_edge, Descent.mark, target]

/-- The lines of a drawing tell the outline. -/
theorem Outline.flattened_eq_of_lines {outline other : Outline} {name : String} {directed : Bool}
    (same : (outline.drawn name directed).lines = (other.drawn name directed).lines) :
    outline.flattened = other.flattened := by
  simp only [drawn_eq, lines] at same
  -- There is one edge less than there are vertices, so the lines tell how many are which.
  have count := congrArg List.length same
  simp only [List.length_append, List.length_map, length_verticesFrom, length_preorder] at count
  have sizes : outline.size = other.size := by
    have below := (outline.numbered 0).length_descents
    have otherBelow := (other.numbered 0).length_descents
    rw [size_numbered] at below otherBelow
    omega
  obtain ⟨vertices, edges⟩ := List.append_inj same (by simpa [length_preorder] using sizes)
  have labels := congrArg (List.map readLabel?) vertices
  have marks := congrArg (List.map readEdge) edges
  simp only [List.map_map, Function.comp_def, readLabel?_vertices] at labels
  simp only [List.map_map, Function.comp_def, readEdge_descents] at marks
  refine outline.told other 0 ?_ marks
  simpa [Function.comp_def] using congrArg (List.map fun label => label.getD "") labels

section

variable (outline other : Outline) (name : String) (directed : Bool)

theorem Outline.quotes_of_mem_vertices :
    ∀ vertex ∈ (outline.drawn name directed).vertices,
      ∃ label, vertex.label = some label ∧ Quotes ("\t" ++ vertex.render) label := by
  intro vertex member
  rw [drawn_eq, List.mem_toArray] at member
  obtain ⟨⟨node, place⟩, -, rfl⟩ := List.mem_map.mp member
  exact ⟨node.label, rfl, quotes_vertex (place + 1) node.label⟩

theorem Outline.quotes_of_mem_edges :
    ∀ edge ∈ (outline.drawn name directed).edges,
      ∃ label, edge.label = some label ∧ Quotes ("\t" ++ edge.render) label := by
  intro edge member
  rw [drawn_eq, List.mem_toArray] at member
  obtain ⟨descent, inside, rfl⟩ := List.mem_map.mp member
  obtain ⟨number, below, shape⟩ := exists_edge inside directed
  rw [shape]
  exact ⟨descent.relation, rfl, quotes_edge number below descent.relation directed⟩

theorem Outline.linesOf_drawn :
    CommandLine.linesOf (outline.drawn name directed).render =
      CommandLine.linesOf (outline.drawn name directed).heading ++
        ((outline.drawn name directed).lines ++ ["\x7d"]) := by
  apply linesOf_render
  intro text member
  rcases List.mem_append.mp member with first | second
  · obtain ⟨vertex, inside, rfl⟩ := List.mem_map.mp first
    obtain ⟨label, -, quoted⟩ :=
      outline.quotes_of_mem_vertices name directed vertex (Array.mem_toList_iff.mp inside)
    exact quoted.single
  · obtain ⟨edge, inside, rfl⟩ := List.mem_map.mp second
    obtain ⟨label, -, quoted⟩ :=
      outline.quotes_of_mem_edges name directed edge (Array.mem_toList_iff.mp inside)
    exact quoted.single

/-- Drawings have the same text if and only if the outlines are the same up to lists of
relations. -/
theorem Outline.render_drawn_inj :
    (outline.drawn name directed).render = (other.drawn name directed).render ↔
      outline.flattened = other.flattened := by
  constructor
  · intro same
    have heading : (outline.drawn name directed).heading =
        (other.drawn name directed).heading := by
      rw [drawn_eq, drawn_eq]
      rfl
    have lines := congrArg CommandLine.linesOf same
    rw [linesOf_drawn, linesOf_drawn, heading] at lines
    exact flattened_eq_of_lines
      (List.append_cancel_right (List.append_cancel_left lines))
  · intro same
    rw [drawn, drawn, ← Outline.draw_flattened, same, Outline.draw_flattened]

end

/-- The texts of what visualizers show tell the outlines up to lists of relations: the kind and
value of a node, and by name and in order what is right below.  Escaped labels have no line
break and no quote that is not escaped, so every vertex and every edge is one line, the next
quote that is not escaped closes its label, and undoing the escapes gives it back.  An outline
is shown if there are numbers for its nodes, and by any counter then. -/
theorem Outline.visualize_legible {outline other : Outline} {name report root otherRoot : String}
    {directed : Bool} {visualizer otherVisualizer : Visualizer}
    (shown : outline.visualize (.stops report) (.new name directed) = .ok (root, visualizer))
    (otherShown : other.visualize (.stops report) (.new name directed) =
      .ok (otherRoot, otherVisualizer)) :
    (visualizer.graph.render = otherVisualizer.graph.render ↔
      outline.flattened = other.flattened) ∧
    (outline.flattened = other.flattened ↔
      outline.kind = other.kind ∧ outline.value? = other.value? ∧
        (outline.branches.map fun (name, below) => (name, below.flattened)) =
          other.branches.map fun (name, below) => (name, below.flattened)) ∧
    (∀ label, '\n' ∉ (escape label).toList ∧ closing? (escape label).toList = none ∧
      (∀ rest, closing? ((escape label).toList ++ '"' :: rest) =
        some ((escape label).toList, rest)) ∧
      unescape (escape label).toList = label.toList) ∧
    CommandLine.linesOf visualizer.graph.render =
      CommandLine.linesOf visualizer.graph.heading ++ (visualizer.graph.lines ++ ["\x7d"]) ∧
    (∀ vertex ∈ visualizer.graph.vertices,
      ∃ label, vertex.label = some label ∧ Quotes ("\t" ++ vertex.render) label) ∧
    (∀ edge ∈ visualizer.graph.edges,
      ∃ label, edge.label = some label ∧ Quotes ("\t" ++ edge.render) label) ∧
    (∀ node : Outline, (∃ result, node.visualize (.stops report) (.new name directed) =
      .ok result) ↔ node.size < UInt32.size - 1) ∧
    ∀ overflow, outline.visualize overflow (.new name directed) = .ok (root, visualizer) := by
  obtain ⟨fits, same⟩ := Outline.visualize_new_stops_iff.mp shown
  obtain ⟨-, otherSame⟩ := Outline.visualize_new_stops_iff.mp otherShown
  cases same
  cases otherSame
  refine ⟨outline.render_drawn_inj other name directed, flattened_eq_iff, fun label =>
    ⟨newline_notMem_escape label, closing?_escape label, closing?_escape_quote label,
      unescape_escape label⟩, outline.linesOf_drawn name directed,
    outline.quotes_of_mem_vertices name directed, outline.quotes_of_mem_edges name directed,
    fun node => ?_, fun overflow => outline.visualize_new name directed overflow fits⟩
  constructor
  · rintro ⟨result, drawn⟩
    exact (Outline.visualize_new_stops_iff.mp drawn).1
  · intro enough
    exact ⟨_, Outline.visualize_new_stops_iff.mpr ⟨enough, rfl⟩⟩

/-- Lists of relations do not show in the text, but an empty value does. -/
theorem Outline.visualize_legible_empty_value :
    let listed : Outline := .node .print (some "a\"\\\n")
      [.children "x" [.leaf .ident "", .leaf .ident "é"], .children "x" []]
    let single : Outline := .node .print (some "a\"\\\n")
      [.child "x" (.leaf .ident ""), .child "x" (.leaf .ident "é")]
    let valueless : Outline := .node .print (some "a\"\\\n")
      [.child "x" (.node .ident none []), .child "x" (.leaf .ident "é")]
    ∃ first second third,
      listed.visualize (.stops "overflow") (.new "g" true) = .ok ("node1", first) ∧
      single.visualize (.stops "overflow") (.new "g" true) = .ok ("node1", second) ∧
      valueless.visualize (.stops "overflow") (.new "g" true) = .ok ("node1", third) ∧
      first.graph.render = second.graph.render ∧ first.graph.render ≠ third.graph.render := by
  intro listed single valueless
  have first : listed.visualize (.stops "overflow") (.new "g" true) = _ :=
    listed.visualize_new "g" true _ (by decide)
  have second : single.visualize (.stops "overflow") (.new "g" true) = _ :=
    single.visualize_new "g" true _ (by decide)
  have third : valueless.visualize (.stops "overflow") (.new "g" true) = _ :=
    valueless.visualize_new "g" true _ (by decide)
  refine ⟨_, _, _, first, second, third, ?_, ?_⟩
  · exact (visualize_legible first second).1.mpr rfl
  · intro same
    have impossible := (visualize_legible first third).1.mp same
    simp [listed, valueless, flattened, Relation.flattenedAll, Relation.flattened,
      flattenedAll, leaf] at impossible

end SheetLang
