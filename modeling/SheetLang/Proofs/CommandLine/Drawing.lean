import SheetLang.CommandLine.Report
import SheetLang.Proofs.Graph.Visualizer

/-!
# What a run draws

A drawing succeeds if its file can be created, the drawing tool can be started for the file of
the picture, takes the text, and exits with the code zero.  Once its file can be created, the
text is left there whatever the tool does.
-/

namespace SheetLang.CommandLine

variable {overflow : Overflow} {surroundings : Surroundings} {request : Request}
  {outline : Outline} {path other text content : String}

/-! ## The drawing tool -/

theorem Tool.Status.success_iff {status : Status} : status.success = true ↔ status = .exited 0 := by
  cases status with
  | exited code => simp [success]
  | ended signal => simp [success]

/-- A drawing tool has to take the text and to end well. -/
theorem Tool.Process.feed_eq_ok_iff {process : Process} :
    process.feed text = .ok () ↔
      process.refusal text = none ∧ process.ending text = .ok (.exited 0) := by
  unfold feed
  cases process.refusal text with
  | some reason => simp
  | none =>
      cases process.ending text with
      | error reason => simp
      | ok status =>
          simp only [Except.ok.injEq, true_and, ← Status.success_iff]
          cases status.success <;> simp

theorem Tool.run_eq_ok_iff {tool : Tool} {name : String} :
    (tool.run name text).2 = .ok () ↔
      ∃ process, tool.start name = .ok process ∧
        process.refusal text = none ∧ process.ending text = .ok (.exited 0) := by
  unfold run
  cases tool.start name with
  | error reason => simp
  | ok process => simp [Process.feed_eq_ok_iff]

/-! ## The files of a drawing -/

theorem drawing_ne_picture (path other : String) : path ++ ".dot" ≠ other ++ ".pdf" := by
  intro same
  have last := congrArg (fun name => name.toList.getLast?) same
  simp [String.toList_append] at last

theorem drawing_eq_iff : path ++ ".dot" = other ++ ".dot" ↔ path = other := by
  constructor
  · intro same
    have characters := congrArg String.toList same
    rw [String.toList_append, String.toList_append] at characters
    exact String.toList_injective (List.append_cancel_right characters)
  · intro same
    rw [same]

theorem writeDrawing_of_fault {reason : String}
    (fault : surroundings.creationFault (path ++ ".dot") = some reason) :
    writeDrawing surroundings path text = ([], .error reason) := by
  simp [writeDrawing, fault]

theorem writeDrawing_of_creatable (free : surroundings.creationFault (path ++ ".dot") = none) :
    writeDrawing surroundings path text =
      ((path ++ ".dot", text) ::
          ((surroundings.tool.run (path ++ ".pdf") text).1.map (path ++ ".pdf", ·)).toList,
        (surroundings.tool.run (path ++ ".pdf") text).2) := by
  simp [writeDrawing, free]

theorem writeDrawing_eq_ok_iff :
    (writeDrawing surroundings path text).2 = .ok () ↔
      surroundings.creationFault (path ++ ".dot") = none ∧
        ∃ process, surroundings.tool.start (path ++ ".pdf") = .ok process ∧
          process.refusal text = none ∧ process.ending text = .ok (.exited 0) := by
  cases fault : surroundings.creationFault (path ++ ".dot") with
  | some reason => simp [writeDrawing_of_fault fault]
  | none => simp [writeDrawing_of_creatable fault, Tool.run_eq_ok_iff]

/-- The drawing is written if its file can be created, whatever the tool does. -/
theorem mem_writeDrawing_iff :
    (other ++ ".dot", content) ∈ (writeDrawing surroundings path text).1 ↔
      path = other ∧ surroundings.creationFault (other ++ ".dot") = none ∧ content = text := by
  cases fault : surroundings.creationFault (path ++ ".dot") with
  | some reason =>
      rw [writeDrawing_of_fault fault]
      refine iff_of_false List.not_mem_nil ?_
      rintro ⟨rfl, free, -⟩
      rw [fault] at free
      cases free
  | none =>
      have picture (answer : Option String) : (other ++ ".dot", content) ∉
          (answer.map (path ++ ".pdf", ·)).toList := by
        simp [Ne.symm (drawing_ne_picture other path)]
      rw [writeDrawing_of_creatable fault, List.mem_cons, or_iff_left (picture _), Prod.mk.injEq,
        drawing_eq_iff]
      constructor
      · rintro ⟨rfl, same⟩
        exact ⟨rfl, fault, same⟩
      · rintro ⟨rfl, -, same⟩
        exact ⟨rfl, same⟩

/-! ## The text of a drawing -/

/-- Texts between a first and a last one stand on lines of their own. -/
theorem intercalate_lines (first last : String) (texts : List String) :
    "\n".intercalate (first :: (texts ++ [last])) =
      line first ++ (String.join (texts.map line) ++ last) := by
  induction texts generalizing first with
  | nil => simp [String.intercalate_cons_cons, String.join_nil, line]
  | cons text texts induction =>
      rw [List.cons_append, String.intercalate_cons_of_ne_nil (List.cons_ne_nil _ _), induction,
        List.map_cons, String.join_cons]
      simp only [line, String.append_assoc]

theorem renderLine_vertex (node : Outline) (number : Nat) :
    Graph.renderLine (Graph.Vertex.render ⟨Graph.vertexName number, some node.label⟩) =
      line (vertexLine node number) := by
  have word : "\tnode" = "\t" ++ "node" := rfl
  simp only [Graph.renderLine, Graph.Vertex.render, Graph.renderLabel, Graph.vertexName,
    vertexLine, word, line, String.append_assoc]

theorem renderLine_edge (descent : Outline.Descent) :
    Graph.renderLine (descent.edge true).render = line (edgeLine descent) := by
  simp [Graph.renderLine, Graph.Edge.render, Outline.Descent.edge, Graph.renderLabel, edgeLine,
    line, String.append_assoc]

/-- A drawing has a line for every node and for every descent. -/
theorem render_drawn (outline : Outline) :
    (outline.drawn "ast" true).render = "\n".intercalate (drawingLines outline) := by
  have vertices : (Graph.verticesFrom 0 outline.preorder).map
      (fun vertex => Graph.renderLine vertex.render) =
      ((outline.preorder.zipIdx 1).map fun place => vertexLine place.1 place.2).map line := by
    rw [List.zipIdx_succ, Graph.verticesFrom, List.map_map, List.map_map, List.map_map]
    exact List.map_congr_left fun place _ => renderLine_vertex place.1 (place.2 + 1)
  have edges : ((outline.numbered 0).descents.map (Outline.Descent.edge true)).map
      (fun edge => Graph.renderLine edge.render) =
      ((outline.numbered 0).descents.map edgeLine).map line := by
    rw [List.map_map, List.map_map]
    exact List.map_congr_left fun descent _ => renderLine_edge descent
  have lines : drawingLines outline = "digraph ast \x7b" ::
      ((outline.preorder.zipIdx 1).map (fun place => vertexLine place.1 place.2) ++
        (outline.numbered 0).descents.map edgeLine ++ ["\x7d"]) := rfl
  rw [outline.drawn_eq, Graph.render, lines, intercalate_lines, List.map_append,
    String.join_append, ← vertices, ← edges]
  simp [line, String.append_assoc]

/-- As long as there are numbers left, the text of a drawing is known by the outline. -/
theorem dotText_of_fits (fits : outline.size < UInt32.size - 1) :
    dotText overflow outline = .ok ("\n".intercalate (drawingLines outline)) := by
  rw [dotText, outline.visualize_new "ast" true overflow fits, ← render_drawn]
  rfl

/-- The drawing of an outline has a text if the counter begins again or does not come to its
end. -/
theorem exists_dotText (possible : overflow = .wraps ∨ outline.size < UInt32.size - 1) :
    ∃ root visualizer, outline.visualize overflow (.new "ast" true) = .ok (root, visualizer) ∧
      dotText overflow outline = .ok visualizer.graph.render := by
  obtain ⟨⟨root, visualizer⟩, drawn⟩ :
      ∃ result, outline.visualize overflow (.new "ast" true) = .ok result := by
    rcases possible with rfl | fits
    · exact outline.exists_visualize_wraps _
    · exact ⟨_, outline.visualize_new "ast" true overflow fits⟩
  refine ⟨root, visualizer, drawn, ?_⟩
  rw [dotText, drawn]
  rfl

/-! ## Drawing on request -/

theorem code_draw_eq_zero_iff (known : dotText overflow outline = .ok text) :
    (draw overflow surroundings request outline).code = 0 ↔
      ∀ path, request.visualize = some path →
        surroundings.creationFault (path ++ ".dot") = none ∧
          ∃ process, surroundings.tool.start (path ++ ".pdf") = .ok process ∧
            process.refusal text = none ∧ process.ending text = .ok (.exited 0) := by
  cases asked : request.visualize with
  | none => simp [draw, asked]
  | some path =>
      simp only [← writeDrawing_eq_ok_iff, draw, asked, known, Option.some.injEq, forall_eq']
      obtain ⟨files, result⟩ := writeDrawing surroundings path text
      cases result <;> simp

theorem mem_files_draw_iff (known : dotText overflow outline = .ok text) :
    (path ++ ".dot", content) ∈ (draw overflow surroundings request outline).files ↔
      request.visualize = some path ∧ surroundings.creationFault (path ++ ".dot") = none ∧
        content = text := by
  cases asked : request.visualize with
  | none => simp [draw, asked]
  | some other =>
      simp only [Option.some.injEq, ← mem_writeDrawing_iff, draw, asked, known]
      obtain ⟨files, result⟩ := writeDrawing surroundings other text
      cases result <;> rfl

end SheetLang.CommandLine
