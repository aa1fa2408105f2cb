import SheetLang.Proofs.CommandLine.Drawing
import SheetLang.Proofs.Parser.Trace

/-!
# Switches for diagnostics

The lists that a run prints on request take no part in what it does.  The tokens are listed
before the source is parsed, and a lexical fault among them ends the run; but the parser
refuses such a source, too, so that no more than the fault reported is a different one.
-/

namespace SheetLang

namespace TokenStream

theorem newline_notMem_of_mem_tokens {source : String} {token : Token}
    (member : token ∈ (ofSource source).tokens) : '\n' ∉ token.text.toList := by
  have listed : (token.kind, token.text.toList) ∈
      (Lexeme.cut source.toList).filterMap Lexeme.token? := by
    rw [← tokens_ofLexemes_cut source.toList 1]
    exact List.mem_map.mpr ⟨token, member, rfl⟩
  obtain ⟨lexeme, found, same⟩ := List.mem_filterMap.mp listed
  cases lexeme with
  | gap | illegal => cases same
  | token kind text =>
      cases same
      exact (newline_notMem_of_mem_cut found rfl).resolve_left nofun

/-- A rejection that is not at the end is reported of one of the tokens. -/
theorem exists_token_of_rejected {stream : TokenStream}
    (failure : Program.ofTokens stream.tokens = .error rejection) (more : rejection.rest ≠ []) :
    ∃ token ∈ stream.tokens, stream.faultOf rejection = .syntactic token.text token.line := by
  cases rejection with
  | unexpected rest =>
      obtain ⟨token, others, same⟩ := List.exists_cons_of_ne_nil more
      cases same
      obtain ⟨used, split⟩ := Program.exists_used failure
      exact ⟨token, by simp [split, Rejection.rest], rfl⟩
  | overflow literal rest =>
      obtain ⟨used, split⟩ := Program.exists_used_of_overflow failure
      exact ⟨literal, by simp [split], rfl⟩

end TokenStream

namespace CommandLine

variable {overflow : Overflow} {surroundings : Surroundings} {request : Request}
  {source : String} {program : Program} {fault : Fault}

/-- A lexical fault refuses a source, whether or not the parser comes to it. -/
theorem error_or_faultBehind (faulty : (TokenStream.ofSource source).fault = some fault) :
    Program.ofSource source = .error fault ∨ FaultBehind source fault := by
  cases refused : Program.refusal? (TokenStream.ofSource source).tokens with
  | none => exact .inl (TokenStream.parse_of_refusal?_eq_none refused faulty)
  | some rejection =>
      obtain ⟨failure, more⟩ := Program.refusal?_eq_some_iff.mp refused
      obtain ⟨token, member, same⟩ := TokenStream.exists_token_of_rejected failure more
      refine .inr ⟨faulty, token, member, ?_⟩
      rw [Program.ofSource, TokenStream.parse, failure, ← same]

/-- There is no program with a lexical fault. -/
theorem fault_eq_none_of_ok (accepted : Program.ofSource source = .ok program) :
    (TokenStream.ofSource source).fault = none :=
  (TokenStream.parse_eq_ok_iff.mp accepted).2

/-! ## Lines -/

theorem linesOf_append_newline (text later : String) :
    linesOf (text ++ "\n" ++ later) = linesOf text ++ linesOf later := by
  rw [linesOf, TokenStream.toList_append_newline, List.splitOn_append_cons_self, List.map_append]
  rfl

theorem linesOf_of_newline_notMem {text : String} (outside : '\n' ∉ text.toList) :
    linesOf text = [text] := by
  rw [linesOf, List.splitOn_eq_singleton outside, List.map_singleton, String.ofList_toList]

theorem newline_notMem_name (kind : Token.Kind) : '\n' ∉ kind.name.toList := by
  cases kind with
  | keyword word => cases word <;> decide
  | symbol mark => cases mark <;> decide
  | _ => decide

theorem newline_notMem_render {token : Token} (outside : '\n' ∉ token.text.toList) :
    '\n' ∉ token.render.toList := by
  have name := newline_notMem_name token.kind
  have digits : '\n' ∉ Nat.toDigits 10 token.line := by
    intro member
    have digit := Nat.isDigit_of_mem_toDigits (by decide) (by decide) member
    revert digit
    decide
  simp [Token.render, String.toList_append, outside, name, digits]

/-- The lines of lines below each other are theirs, and those of what stands behind them. -/
theorem linesOf_join_append (texts : List String) (last : String) :
    linesOf (String.join (texts.map line) ++ last) = texts.flatMap linesOf ++ linesOf last := by
  induction texts with
  | nil => simp [String.join_nil]
  | cons text texts induction =>
      calc
        linesOf (String.join ((text :: texts).map line) ++ last)
        _ = linesOf (text ++ "\n" ++ (String.join (texts.map line) ++ last)) := by
          rw [List.map_cons, String.join_cons, line, String.append_assoc]
        _ = linesOf text ++ linesOf (String.join (texts.map line) ++ last) :=
          linesOf_append_newline text _
        _ = (text :: texts).flatMap linesOf ++ linesOf last := by
          rw [induction, List.flatMap_cons, List.append_assoc]

/-- No token is listed as the heading of the outline. -/
theorem heading_notMem_tokensText {tokens : List Token}
    (outside : ∀ token ∈ tokens, '\n' ∉ token.text.toList) :
    "AST:" ∉ linesOf (tokensText tokens) := by
  have lines : tokensText tokens =
      String.join (("Tokens:" :: tokens.map fun token => "\t" ++ token.render).map line) := by
    simp [tokensText, String.join_cons, Function.comp_def]
  rw [lines, ← String.append_empty (s := String.join _), linesOf_join_append]
  intro member
  rcases List.mem_append.mp member with listed | last
  · obtain ⟨text, found, heading⟩ := List.mem_flatMap.mp listed
    rcases List.mem_cons.mp found with rfl | found
    · revert heading
      decide
    · obtain ⟨token, present, rfl⟩ := List.mem_map.mp found
      have alone : '\n' ∉ ("\t" ++ token.render).toList := by
        simp [String.toList_append, newline_notMem_render (outside token present)]
      rw [linesOf_of_newline_notMem alone, List.mem_singleton] at heading
      have first := congrArg (fun text => text.toList.head?) heading
      simp [String.toList_append] at first
  · revert last
    decide

theorem heading_notMem_listing (verbose : Bool) (source : String) :
    "AST:" ∉ linesOf (listing verbose source) := by
  unfold listing
  split
  · exact heading_notMem_tokensText fun _ => TokenStream.newline_notMem_of_mem_tokens
  · decide

/-! ## Nodes -/

/-- The name of a kind is listed word by word. -/
theorem snakeCase_name (kind : Outline.Kind) :
    snakeCase kind.name = "_".intercalate kind.words := by
  cases kind <;> decide

theorem traceText_eq (outline : Outline) :
    traceText outline = String.join (outline.postorder.map fun node =>
      "_".intercalate node.kind.words ++ "( " ++ node.value?.getD "" ++ " )\n") := by
  refine congrArg String.join (List.map_congr_left fun node _ => ?_)
  rw [traceLine, snakeCase_name, line, String.append_assoc]
  rfl

/-- Prints a line for every node. -/
def printing : Trace String :=
  ⟨fun printed _ => printed, fun printed node => printed ++ traceLine node⟩

/-- The list of nodes is what a trace prints that is told of the parse. -/
theorem parseTraced_printing (source : String) :
    (Reader.ofSource source).parseTraced printing "" =
      (Program.ofSource source, ((Program.ofSource source).toOption.map fun program =>
        traceText program.outline).getD "") := by
  have parsed : (Reader.ofSource source).parseTraced printing "" =
      (Program.ofSource source,
        printing.told "" (TokenStream.ofSource source).pulled (Program.ofSource source)) :=
    Reader.parseTraced_eq (Reader.ofSource source) printing ""
  have silent (tokens : List Token) : tokens.foldl printing.token "" = "" :=
    List.foldl_fixed tokens
  rw [parsed]
  cases Program.ofSource source with
  | error fault => rw [Trace.told, silent, Except.toOption, Option.map_none, Option.getD_none]
  | ok program =>
      rw [Trace.told, silent, Except.toOption, Option.map_some, Option.getD_some, traceText,
        String.join, List.foldl_map]
      rfl

/-! ## Runs -/

theorem runSource_of_error (refused : Program.ofSource source = .error fault) :
    runSource overflow surroundings request source =
      ⟨1, listing request.verbose source,
        line (reported request.verbose source fault).message, []⟩ := by
  have parsed : (TokenStream.ofSource source).parse = .error fault := refused
  obtain ⟨file, visualize, verbose, trace⟩ := request
  cases verbose with
  | false => simp [runSource, listing, reported, parsed]
  | true =>
      cases faulty : (TokenStream.ofSource source).fault with
      | none => simp [runSource, listing, reported, parsed, faulty]
      | some earlier => simp [runSource, listing, reported, faulty, Outcome.fault]

theorem runSource_of_ok (accepted : Program.ofSource source = .ok program) :
    runSource overflow surroundings request source =
      ⟨(draw overflow surroundings request program.outline).code,
        if request.verbose then
          listing true source ++ outlineText program.outline surroundings.elapsed
        else "",
        (if request.trace then traceText program.outline else "") ++
          (draw overflow surroundings request program.outline).stderr,
        (draw overflow surroundings request program.outline).files⟩ := by
  have parsed : (TokenStream.ofSource source).parse = .ok program := accepted
  have sound := fault_eq_none_of_ok accepted
  have legal : (if request.verbose then (TokenStream.ofSource source).fault else none) = none := by
    simp [sound]
  have listed : listing true source = tokensText (TokenStream.ofSource source).tokens := by
    simp [listing, sound]
  simp only [runSource, legal, parsed, listed]
  cases request.verbose <;> simp

/-- All that a run comes to: there is no source, or the parser refuses it, or there is a
program. -/
theorem runWith_cases (overflow : Overflow) (surroundings : Surroundings) (request : Request) :
    (surroundings.source? request.file = none ∧
      ∃ message, ∀ verbose trace elapsed,
        runWith overflow surroundings request verbose trace elapsed = .fault message) ∨
    (∃ source fault, surroundings.source? request.file = some source ∧
      Program.ofSource source = .error fault ∧
      ∀ verbose trace elapsed, runWith overflow surroundings request verbose trace elapsed =
        ⟨1, listing verbose source, line (reported verbose source fault).message, []⟩) ∨
    ∃ source program, surroundings.source? request.file = some source ∧
      Program.ofSource source = .ok program ∧
      ∀ verbose trace elapsed, runWith overflow surroundings request verbose trace elapsed =
        ⟨(draw overflow surroundings request program.outline).code,
          if verbose then listing true source ++ outlineText program.outline elapsed else "",
          (if trace then traceText program.outline else "") ++
            (draw overflow surroundings request program.outline).stderr,
          (draw overflow surroundings request program.outline).files⟩ := by
  cases content : surroundings.read request.file with
  | error reason =>
      refine .inl ⟨by simp [Surroundings.source?, content], reason ++ ": " ++ request.file, ?_⟩
      intro verbose trace elapsed
      simp [runWith, runRequest, content]
  | ok bytes =>
      cases text : String.fromUTF8? bytes with
      | none =>
          refine .inl ⟨by simp [Surroundings.source?, content, text],
            "stream did not contain valid UTF-8: " ++ request.file, ?_⟩
          intro verbose trace elapsed
          simp [runWith, runRequest, content, text]
      | some source =>
          have found : surroundings.source? request.file = some source := by
            simp [Surroundings.source?, content, text]
          have run (verbose trace : Bool) (elapsed : String) :
              runWith overflow surroundings request verbose trace elapsed =
                runSource overflow { surroundings with elapsed := elapsed }
                  { request with verbose := verbose, trace := trace } source := by
            simp [runWith, runRequest, content, text]
          right
          cases parsed : Program.ofSource source with
          | error fault =>
              refine .inl ⟨source, fault, found, parsed, fun verbose trace elapsed => ?_⟩
              rw [run, runSource_of_error parsed]
          | ok program =>
              refine .inr ⟨source, program, found, parsed, fun verbose trace elapsed => ?_⟩
              rw [run, runSource_of_ok parsed]
              rfl

/-- Which of two faults of a source is reported makes a difference only where the lexical one
stands behind the token at which the parser gives up. -/
theorem reported_eq (refused : Program.ofSource source = .error fault)
    (none : ∀ later, ¬FaultBehind source later) (verbose : Bool) :
    reported verbose source fault = fault := by
  unfold reported
  split
  · cases faulty : (TokenStream.ofSource source).fault with
    | none => rfl
    | some lexical =>
        have same := (error_or_faultBehind faulty).resolve_right (none lexical)
        rw [refused] at same
        cases same
        rfl
  · rfl

/-- Neither the exit code nor the files depend on the switches for diagnostics. -/
theorem code_and_files_runWith (verbose trace verbose' trace' : Bool)
    (elapsed elapsed' : String) :
    (runWith overflow surroundings request verbose trace elapsed).code =
        (runWith overflow surroundings request verbose' trace' elapsed').code ∧
      (runWith overflow surroundings request verbose trace elapsed).files =
        (runWith overflow surroundings request verbose' trace' elapsed').files := by
  rcases runWith_cases overflow surroundings request with
    ⟨-, message, run⟩ | ⟨source, fault, -, -, run⟩ | ⟨source, program, -, -, run⟩
  all_goals
    rw [run, run]
    exact ⟨rfl, rfl⟩

theorem stdout_runWith_trace (verbose : Bool) (elapsed : String) :
    (runWith overflow surroundings request verbose true elapsed).stdout =
      (runWith overflow surroundings request verbose false elapsed).stdout := by
  rcases runWith_cases overflow surroundings request with
    ⟨-, message, run⟩ | ⟨source, fault, -, -, run⟩ | ⟨source, program, -, -, run⟩
  all_goals rw [run, run]

/-- The nodes of a program are listed before anything else can go wrong. -/
theorem stderr_runWith_trace (verbose : Bool) (elapsed elapsed' : String) :
    (runWith overflow surroundings request verbose true elapsed).stderr =
      ((surroundings.program? request.file).map fun program =>
        traceText program.outline).getD "" ++
        (runWith overflow surroundings request verbose false elapsed').stderr := by
  rcases runWith_cases overflow surroundings request with
    ⟨missing, message, run⟩ | ⟨source, fault, found, refused, run⟩ |
      ⟨source, program, found, accepted, run⟩
  · simp [run, Surroundings.program?, missing]
  · simp [run, Surroundings.program?, found, refused, Except.toOption]
  · simp [run, Surroundings.program?, found, accepted, Except.toOption]

theorem stdout_runWith_quiet (trace : Bool) (elapsed : String) :
    (runWith overflow surroundings request false trace elapsed).stdout = "" := by
  rcases runWith_cases overflow surroundings request with
    ⟨-, message, run⟩ | ⟨source, fault, -, -, run⟩ | ⟨source, program, -, -, run⟩
  all_goals rw [run]; rfl

theorem stderr_runWith_verbose (trace : Bool) (elapsed elapsed' : String)
    (none : ∀ source fault, surroundings.source? request.file = some source →
      ¬FaultBehind source fault) :
    (runWith overflow surroundings request true trace elapsed).stderr =
      (runWith overflow surroundings request false trace elapsed').stderr := by
  rcases runWith_cases overflow surroundings request with
    ⟨-, message, run⟩ | ⟨source, fault, found, refused, run⟩ | ⟨source, program, -, -, run⟩
  · rw [run, run]
  · have same := reported_eq refused (fun later => none source later found)
    rw [run, run, same, same]
  · rw [run, run]

theorem stderr_runWith_of_faultBehind (trace : Bool) (elapsed : String)
    (found : surroundings.source? request.file = some source) (behind : FaultBehind source fault) :
    (runWith overflow surroundings request true trace elapsed).stderr = line fault.message := by
  obtain ⟨faulty, token, -, refused⟩ := behind
  rcases runWith_cases overflow surroundings request with
    ⟨missing, -⟩ | ⟨other, first, present, -, run⟩ | ⟨other, program, present, accepted, -⟩
  · rw [found] at missing
    cases missing
  · rw [found] at present
    cases present
    simp [run, reported, faulty]
  · rw [found] at present
    cases present
    rw [refused] at accepted
    cases accepted

/-- Without a program, nothing is left behind. -/
theorem runWith_refused (verbose trace : Bool) (elapsed : String)
    (refused : ∀ source, surroundings.source? request.file = some source →
      (TokenStream.ofSource source).fault ≠ none ∨
        ∃ fault, Program.ofSource source = .error fault) :
    (runWith overflow surroundings request verbose trace elapsed).code = 1 ∧
      (runWith overflow surroundings request verbose trace elapsed).files = [] ∧
      "AST:" ∉ linesOf (runWith overflow surroundings request verbose trace elapsed).stdout := by
  rcases runWith_cases overflow surroundings request with
    ⟨-, message, run⟩ | ⟨source, fault, -, -, run⟩ | ⟨source, program, found, accepted, -⟩
  · have empty : "AST:" ∉ linesOf "" := by decide
    rw [run]
    exact ⟨rfl, rfl, empty⟩
  · rw [run]
    exact ⟨rfl, rfl, heading_notMem_listing verbose source⟩
  · rcases refused source found with faulty | ⟨fault, failure⟩
    · exact absurd (fault_eq_none_of_ok accepted) faulty
    · rw [accepted] at failure
      cases failure

/-- With a program, a run comes to what drawing it comes to. -/
theorem runWith_accepted (verbose trace : Bool) (elapsed : String)
    (found : surroundings.source? request.file = some source)
    (accepted : Program.ofSource source = .ok program) :
    (runWith overflow surroundings request verbose trace elapsed).code =
        (draw overflow surroundings request program.outline).code ∧
      (runWith overflow surroundings request verbose trace elapsed).files =
        (draw overflow surroundings request program.outline).files := by
  rcases runWith_cases overflow surroundings request with
    ⟨missing, -⟩ | ⟨other, fault, present, refused, -⟩ | ⟨other, another, present, parsed, run⟩
  · rw [found] at missing
    cases missing
  · rw [found] at present
    cases present
    rw [accepted] at refused
    cases refused
  · rw [found] at present
    cases present
    rw [accepted] at parsed
    cases parsed
    rw [run]
    exact ⟨rfl, rfl⟩

/-- The switches for diagnostics change what is printed, and nothing else; a source that is
refused leaves no file and no outline behind; and a program is drawn if the file for the
drawing can be created, whatever the tool does then.  The drawing has a line for every node and
for every way down, as long as there are numbers for the nodes. -/
theorem runWith_switches (overflow : Overflow) (surroundings : Surroundings)
    (request : Request) :
    (∀ verbose trace elapsed verbose' trace' elapsed',
      (runWith overflow surroundings request verbose trace elapsed).code =
        (runWith overflow surroundings request verbose' trace' elapsed').code) ∧
    (∀ verbose elapsed elapsed',
      let plain := runWith overflow surroundings request verbose false elapsed
      let traced := runWith overflow surroundings request verbose true elapsed'
      (elapsed = elapsed' → traced.stdout = plain.stdout) ∧ traced.files = plain.files ∧
        traced.stderr =
          (((surroundings.program? request.file).map fun program =>
            String.join (program.outline.postorder.map fun node =>
              "_".intercalate node.kind.words ++ "( " ++ node.value?.getD "" ++ " )\n")).getD
            "") ++ plain.stderr) ∧
    (∀ trace elapsed elapsed',
      let quiet := runWith overflow surroundings request false trace elapsed
      let verbose := runWith overflow surroundings request true trace elapsed'
      verbose.files = quiet.files ∧ quiet.stdout = "" ∧
        ((∀ source fault, surroundings.source? request.file = some source →
          ¬FaultBehind source fault) → verbose.stderr = quiet.stderr) ∧
        ∀ source fault, surroundings.source? request.file = some source →
          FaultBehind source fault → verbose.stderr = line fault.message) ∧
    ((∀ source, surroundings.source? request.file = some source →
        (TokenStream.ofSource source).fault ≠ none ∨
          ∃ fault, Program.ofSource source = .error fault) →
      ∀ verbose trace elapsed,
        (runWith overflow surroundings request verbose trace elapsed).code = 1 ∧
          (runWith overflow surroundings request verbose trace elapsed).files = [] ∧
          "AST:" ∉
            linesOf (runWith overflow surroundings request verbose trace elapsed).stdout) ∧
    ∀ source program, surroundings.source? request.file = some source →
      Program.ofSource source = .ok program →
      (overflow = .wraps ∨ program.outline.size < UInt32.size - 1) →
      ∃ root visualizer,
        program.outline.visualize overflow (.new "ast" true) = .ok (root, visualizer) ∧
        (program.outline.size < UInt32.size - 1 →
          visualizer.graph.render = "\n".intercalate (drawingLines program.outline)) ∧
        ∀ verbose trace elapsed,
          ((runWith overflow surroundings request verbose trace elapsed).code = 0 ↔
            ∀ path, request.visualize = some path →
              surroundings.creationFault (path ++ ".dot") = none ∧
                ∃ process, surroundings.tool.start (path ++ ".pdf") = .ok process ∧
                  process.refusal visualizer.graph.render = none ∧
                  process.ending visualizer.graph.render = .ok (.exited 0)) ∧
          ∀ path text, (path ++ ".dot", text) ∈
              (runWith overflow surroundings request verbose trace elapsed).files ↔
            request.visualize = some path ∧
              surroundings.creationFault (path ++ ".dot") = none ∧
              text = visualizer.graph.render := by
  refine ⟨fun verbose trace elapsed verbose' trace' elapsed' =>
    (code_and_files_runWith ..).1, ?_, ?_, ?_, ?_⟩
  · intro verbose elapsed elapsed'
    refine ⟨fun same => ?_, (code_and_files_runWith ..).2, ?_⟩
    · rw [same]
      exact stdout_runWith_trace ..
    · simp only [← traceText_eq]
      exact stderr_runWith_trace ..
  · intro trace elapsed elapsed'
    exact ⟨(code_and_files_runWith ..).2, stdout_runWith_quiet .., stderr_runWith_verbose _ _ _,
      fun source fault => stderr_runWith_of_faultBehind _ _⟩
  · exact fun refused verbose trace elapsed => runWith_refused verbose trace elapsed refused
  · intro source program found accepted possible
    obtain ⟨root, visualizer, drawn, known⟩ := exists_dotText possible
    refine ⟨root, visualizer, drawn, fun fits => ?_, fun verbose trace elapsed => ?_⟩
    · rw [dotText_of_fits fits] at known
      exact (Except.ok.inj known).symm
    · obtain ⟨code, files⟩ := runWith_accepted verbose trace elapsed found accepted
      rw [code, files]
      exact ⟨code_draw_eq_zero_iff known, fun path text => mem_files_draw_iff known⟩

/-- Surroundings in which every file holds this text and every file can be created. -/
def Surroundings.holding (source : String) (tool : Tool) : Surroundings :=
  ⟨fun _ => .ok source.toUTF8, fun _ => none, tool, ""⟩

theorem source?_holding (source : String) (tool : Tool) (file : String) :
    (Surroundings.holding source tool).source? file = some source := by
  have valid : source.toUTF8.IsValidUTF8 := source.isValidUTF8
  simp only [Surroundings.source?, Surroundings.holding, String.fromUTF8?, dif_pos valid]
  rfl

/-- A lexical fault behind a misplaced bracket is reported in its place.  The nodes of a program
are listed in front of what goes wrong with the drawing, and a tool that fails leaves the drawing
behind that it was given. -/
theorem runWith_switches_print :
    let bracket := Surroundings.holding "print_sheet ]\né" (.failing 3)
    let failing := Surroundings.holding "print_sheet AB" (.failing 3)
    let drawing := Surroundings.holding "print_sheet AB" (.drawing id)
    let request : Request := ⟨"in", some "tree", false, false⟩
    (runWith .wraps bracket request true true "").stderr = line (Fault.lexical 'é' 2).message ∧
      (runWith .wraps bracket request true true "").code = 1 ∧
      (runWith .wraps failing request false true "1ms").stderr =
        "ident( AB )\nprint( sheet )\nprogram(  )\n" ++
          (runWith .wraps failing request false false "2ms").stderr ∧
      (runWith .wraps failing request true false "1ms").stderr =
        (runWith .wraps failing request false false "2ms").stderr ∧
      (runWith .wraps failing request false false "2ms").code ≠ 0 ∧
      (runWith .wraps drawing request true true "2ms").code = 0 ∧
      ("tree" ++ ".dot",
        "digraph ast \x7b\n" ++
          "\tnode1 [ label=\"Program\" ];\n" ++
          "\tnode2 [ label=\"Print:sheet\" ];\n" ++
          "\tnode3 [ label=\"Ident:AB\" ];\n" ++
          "\tnode2 -> node3 [ label=\"target\" ];\n" ++
          "\tnode1 -> node2 [ label=\"statements\" ];\n\x7d") ∈
        (runWith .wraps failing request false false "2ms").files := by
  intro bracket failing drawing request
  have stream : TokenStream.ofSource "print_sheet ]\né" =
      ⟨[⟨.keyword .printSheet, "print_sheet", 1⟩, ⟨.symbol .rightBracket, "]", 1⟩],
        some (.lexical 'é' 2)⟩ := by
    decide
  have sound : TokenStream.ofSource "print_sheet AB" =
      ⟨[⟨.keyword .printSheet, "print_sheet", 1⟩, ⟨.sheetName, "AB", 1⟩], none⟩ := by
    decide
  have refused : Program.ofSource "print_sheet ]\né" = .error (.syntactic "]" 1) := by
    rw [Program.ofSource, stream]
    rfl
  have accepted : Program.ofSource "print_sheet AB" = .ok ⟨[], [.print none (.sheet "AB")]⟩ := by
    rw [Program.ofSource, sound]
    rfl
  have behind : FaultBehind "print_sheet ]\né" (.lexical 'é' 2) := by
    refine ⟨by rw [stream], ⟨.symbol .rightBracket, "]", 1⟩, ?_, refused⟩
    rw [stream]
    decide
  have found (source : String) (tool : Tool) := source?_holding source tool "in"
  have faulty := runWith_switches .wraps bracket request
  have failed := runWith_switches .wraps failing request
  have drawn := runWith_switches .wraps drawing request
  obtain ⟨root, visualizer, -, written, results⟩ :=
    failed.2.2.2.2 _ _ (found _ _) accepted (.inl rfl)
  obtain ⟨code, files⟩ := results false false "2ms"
  have text := written (by decide)
  refine ⟨?_, ?_, ?_, ?_, ?_, ?_, ?_⟩
  · exact (faulty.2.2.1 true "" "").2.2.2 _ _ (found _ _) behind
  · refine (faulty.2.2.2.1 (fun source same => ?_) true true "").1
    rw [found] at same
    cases same
    exact .inr ⟨_, refused⟩
  · have listed := (failed.2.1 false "2ms" "1ms").2.2
    rw [Surroundings.program?, found, Option.bind_some, accepted] at listed
    exact listed
  · refine (failed.2.2.1 false "2ms" "1ms").2.2.1 fun source fault same impossible => ?_
    rw [found] at same
    cases same
    obtain ⟨-, token, -, failure⟩ := impossible
    rw [accepted] at failure
    cases failure
  · intro success
    obtain ⟨-, process, started, -, ending⟩ := code.mp success "tree" rfl
    cases started
    cases ending
  · obtain ⟨root, visualizer, -, -, results⟩ :=
      drawn.2.2.2.2 _ _ (found _ _) accepted (.inl rfl)
    refine (results true true "2ms").1.mpr fun path _ => ⟨rfl, _, rfl, rfl, rfl⟩
  · refine (files "tree" _).mpr ⟨rfl, rfl, ?_⟩
    rw [text]
    decide +kernel

end CommandLine

end SheetLang
