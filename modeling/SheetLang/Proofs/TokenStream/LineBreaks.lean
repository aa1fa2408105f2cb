import SheetLang.Proofs.Grammar.Lines
import SheetLang.Proofs.Lexeme.LineBreaks

/-!
# Sources on top of each other

No lexeme but a line break reaches past the end of a line, and none is chosen by what stands
on later lines.  So the tokens of two sources with a line break between them are those of
the one and, further down, those of the other, up to the first fault of either.
-/

namespace SheetLang

namespace TokenStream

variable {source later : String} {line : Nat} {lexemes : List Lexeme}

/-! ## Lexemes -/

theorem fault_ofLexemes_eq_none_iff :
    (ofLexemes line lexemes).fault = none ↔
      ∀ lexeme ∈ lexemes, lexeme.illegal? = none := by
  obtain ⟨last, faulty⟩ := fault_ofLexemes line lexemes
  rw [faulty, Option.map_eq_none_iff, List.findSome?_eq_none_iff]

theorem exists_illegal_of_fault {fault : Fault}
    (faulty : (ofLexemes line lexemes).fault = some fault) :
    ∃ before character tail after, lexemes = before ++ .illegal character tail :: after ∧
      ∀ lexeme ∈ before, lexeme.illegal? = none := by
  obtain ⟨last, faults⟩ := fault_ofLexemes line lexemes
  obtain ⟨character, found, -⟩ := Option.map_eq_some_iff.mp (faults.symm.trans faulty)
  obtain ⟨before, lexeme, after, split, illegal, legal⟩ := List.findSome?_eq_some_iff.mp found
  cases lexeme with
  | illegal character tail => exact ⟨before, character, tail, after, split, legal⟩
  | gap | token => cases illegal

/-- Lexemes behind others without a fault begin behind the line breaks of those. -/
theorem ofLexemes_append {before : List Lexeme}
    (legal : ∀ lexeme ∈ before, lexeme.illegal? = none) (line : Nat) (after : List Lexeme) :
    ofLexemes line (before ++ after) =
      ⟨(ofLexemes line before).tokens ++
          (ofLexemes (line + (before.map Lexeme.lineBreaks).sum) after).tokens,
        (ofLexemes (line + (before.map Lexeme.lineBreaks).sum) after).fault⟩ := by
  induction before generalizing line with
  | nil => rfl
  | cons lexeme before induction =>
      obtain ⟨first, others⟩ := List.forall_mem_cons.mp legal
      rw [List.cons_append, List.map_cons, List.sum_cons, ← Nat.add_assoc]
      cases lexeme with
      | gap text => exact induction others _
      | token kind text =>
          simp only [ofLexemes, Lexeme.lineBreaks, induction others line]
          rfl
      | illegal character tail => cases first

/-- Lexemes that begin further down have the same tokens and the same fault further down. -/
theorem ofLexemes_add (line lines : Nat) (lexemes : List Lexeme) :
    ofLexemes (line + lines) lexemes =
      ⟨(ofLexemes line lexemes).tokens.map (Token.down lines),
        (ofLexemes line lexemes).fault.map (Fault.down lines)⟩ := by
  induction lexemes generalizing line with
  | nil => rfl
  | cons lexeme later induction =>
      cases lexeme with
      | gap text =>
          simp only [ofLexemes]
          rw [Nat.add_right_comm, induction]
      | token kind text =>
          simp only [ofLexemes, List.map_cons, Token.down_mk, induction line]
      | illegal character tail => rfl

/-! ## Sources -/

theorem toList_append_newline (source later : String) :
    (source ++ "\n" ++ later).toList = source.toList ++ '\n' :: later.toList := by
  simp [String.toList_append]

theorem ofSource_behind_newline (sound : (ofSource source).fault = none) (later : String) :
    ofSource (source ++ "\n" ++ later) =
      ⟨(ofSource source).tokens ++
          (ofSource later).tokens.map (Token.down (source.toList.count '\n' + 1)),
        (ofSource later).fault.map (Fault.down (source.toList.count '\n' + 1))⟩ := by
  have legal := fault_ofLexemes_eq_none_iff.mp sound
  have behind : ofLexemes (1 + source.toList.count '\n')
      (.gap ['\n'] :: Lexeme.cut later.toList) =
        ⟨(ofSource later).tokens.map (Token.down (source.toList.count '\n' + 1)),
          (ofSource later).fault.map (Fault.down (source.toList.count '\n' + 1))⟩ := by
    simp only [ofLexemes, List.count_singleton_self, Nat.add_assoc]
    exact ofLexemes_add 1 _ _
  have lines := Lexeme.sum_lineBreaks_cut legal
  calc
    ofSource (source ++ "\n" ++ later)
    _ = ofLexemes 1 (Lexeme.cut source.toList ++ .gap ['\n'] :: Lexeme.cut later.toList) := by
      rw [ofSource, toList_append_newline, Lexeme.cut_append_newline legal]
    _ = ⟨(ofSource source).tokens ++ (ofLexemes (1 + source.toList.count '\n')
            (.gap ['\n'] :: Lexeme.cut later.toList)).tokens,
          (ofLexemes (1 + source.toList.count '\n')
            (.gap ['\n'] :: Lexeme.cut later.toList)).fault⟩ := by
      rw [ofLexemes_append legal, lines]
      rfl
    _ = _ := by rw [behind]

theorem ofSource_append_newline (sound : (ofSource source).fault = none)
    (laterSound : (ofSource later).fault = none) :
    ofSource (source ++ "\n" ++ later) =
      ⟨(ofSource source).tokens ++
        (ofSource later).tokens.map (Token.down (source.toList.count '\n' + 1)), none⟩ := by
  rw [ofSource_behind_newline sound, laterSound, Option.map_none]

/-- Nothing follows a fault, and no later line undoes it. -/
theorem ofSource_append_newline_of_fault {fault : Fault}
    (faulty : (ofSource source).fault = some fault) (later : String) :
    ofSource (source ++ "\n" ++ later) = ofSource source := by
  obtain ⟨before, character, tail, after, split, legal⟩ := exists_illegal_of_fault faulty
  obtain ⟨more, longer⟩ := Lexeme.cut_append_newline_of_illegal split legal later.toList
  rw [ofSource, ofSource, toList_append_newline, longer, split, ofLexemes_append legal,
    ofLexemes_append legal]
  rfl

/-- Every lexeme but a line break is on one line. -/
theorem newline_notMem_of_mem_cut {text : List Char} {lexeme : Lexeme}
    (member : lexeme ∈ Lexeme.cut text) (legal : lexeme.illegal? = none) :
    lexeme = .gap ['\n'] ∨ '\n' ∉ lexeme.text := by
  obtain ⟨before, after, found⟩ := List.append_of_mem member
  have stands := (Lexeme.stands_iff_of_cut found).mpr rfl
  generalize text.drop _ = behind at stands
  cases stands with
  | @blank character rest blank =>
      by_cases same : character = '\n'
      · exact .inl (by rw [same])
      · exact .inr (by simpa [Lexeme.text] using Ne.symm same)
  | comment comment => exact .inr comment.2.1.2.2.2
  | token missing munches => exact .inr (newline_notMem_of_admits munches.matches.2.2)
  | illegal => cases legal

/-- Tokenizing two sources with a line break between them is tokenizing one after the other,
as every lexeme but a line break is on one line. -/
theorem tokenize_append_newline :
    (∀ source later : String,
      (Reader.ofSource (source ++ "\n" ++ later)).tokenize.1 =
        match (Reader.ofSource source).tokenize.1, (Reader.ofSource later).tokenize.1 with
        | .error fault, _ => .error fault
        | .ok _, .error fault => .error (fault.down (1 + source.toList.count '\n'))
        | .ok tokens, .ok more =>
          .ok (tokens ++ more.map (Token.down (1 + source.toList.count '\n')))) ∧
    ∀ source : String, ∀ lexeme ∈ Lexeme.cut source.toList, lexeme.illegal? = none →
      lexeme = .gap ['\n'] ∨ '\n' ∉ lexeme.text := by
  constructor
  · intro source later
    have read (text : String) : (Reader.ofSource text).tokenize.1 = (ofSource text).complete := rfl
    rw [read, read, read, Nat.add_comm]
    cases faulty : (ofSource source).fault with
    | some fault =>
        rw [ofSource_append_newline_of_fault faulty]
        simp only [complete, faulty]
    | none =>
        rw [ofSource_behind_newline faulty]
        simp only [complete, faulty]
        cases (ofSource later).fault <;> rfl
  · intro source lexeme member legal
    exact newline_notMem_of_mem_cut member legal

/-- Dots at the end of a line and at the beginning of the next one are no comment, and the
fault of the later source is found behind both. -/
theorem tokenize_append_newline_dots :
    (Reader.ofSource ("xs .." ++ "\n" ++ "..\n.. é")).tokenize.1 = .error (.lexical 'é' 3) ∧
      (Reader.ofSource ("xs .." ++ "\n" ++ "..\n..")).tokenize.1 =
        .ok [⟨.ident, "xs", 1⟩, ⟨.symbol .dots, "..", 1⟩, ⟨.symbol .dots, "..", 2⟩,
          ⟨.symbol .dots, "..", 3⟩] ∧
      (Lexeme.token (.symbol .dots) ['.', '.'] = .gap ['\n'] ∨
        '\n' ∉ (Lexeme.token (.symbol .dots) ['.', '.']).text) := by
  have first : (Reader.ofSource "xs ..").tokenize.1 =
      .ok [⟨.ident, "xs", 1⟩, ⟨.symbol .dots, "..", 1⟩] := by decide
  have faulty : (Reader.ofSource "..\n.. é").tokenize.1 = .error (.lexical 'é' 2) := by decide
  have sound : (Reader.ofSource "..\n..").tokenize.1 =
      .ok [⟨.symbol .dots, "..", 1⟩, ⟨.symbol .dots, "..", 2⟩] := by decide
  refine ⟨?_, ?_, ?_⟩
  · rw [tokenize_append_newline.1, first, faulty]
    rfl
  · rw [tokenize_append_newline.1, first, sound]
    rfl
  · exact tokenize_append_newline.2 "xs .." _ (by decide) rfl

end TokenStream

end SheetLang
