import SheetLang.Parser.Refusal
import SheetLang.Proofs.Grammar.Erased
import SheetLang.Proofs.Grammar.Lines
import SheetLang.Proofs.Parser.Localisation
import SheetLang.Proofs.Program.Values
import SheetLang.Proofs.TokenStream.Layout

/-!
# Sources that are spelled differently

Two sources whose tokens have the same kinds, and whole numbers out of range at the same
places, are parsed in lockstep to the end.  So both are programs, which differ in names,
texts and numbers only, or both are refused at the same place.
-/

namespace SheetLang

variable {tokens others : List Token} {source other : String} {rejection : Rejection}

/-! ## Outcomes -/

theorem aligned_of_kinds (kinds : tokens.map Token.kind = others.map Token.kind)
    (overflows : tokens.map Token.overflows = others.map Token.overflows) :
    Aligned [] [] tokens others := by
  induction tokens generalizing others with
  | nil =>
      obtain rfl := List.map_eq_nil_iff.mp kinds.symm
      exact .here rfl
  | cons token tokens induction =>
      obtain ⟨other, others, rfl, kind, rest⟩ := List.map_eq_cons_iff.mp kinds.symm
      obtain ⟨fits, behind⟩ := List.cons.inj overflows
      exact .next ⟨kind.symm, fits⟩ (induction rest.symm behind)

theorem Program.ofTokens_of_aligned (aligned : Aligned [] [] tokens others) :
    (∃ program another, Program.ofTokens tokens = .ok program ∧
      Program.ofTokens others = .ok another) ∨
    ∃ rejection another, Program.ofTokens tokens = .error rejection ∧
      Program.ofTokens others = .error another ∧ Matching [] [] rejection another := by
  have agree := Parser.agree_program aligned
  unfold Program.ofTokens
  generalize Parser.program (Nested.upTo tokens.length) tokens = outcome at agree ⊢
  generalize Parser.program (Nested.upTo others.length) others = result at agree ⊢
  cases agree with
  -- The places are the ends of the lists, and no run goes beyond them.
  | beyond passed => cases passed
  | rejected matching => exact .inr ⟨_, _, rfl, rfl, matching⟩
  | accepted behind =>
      obtain ⟨rfl, rfl⟩ | ⟨token, rest, second, more, rfl, rfl, -⟩ := behind.cases
      · exact .inl ⟨_, _, rfl, rfl⟩
      · exact .inr ⟨_, _, rfl, rfl, .unexpected behind⟩

/-! ## Places -/

theorem Matching.place_eq {another : Rejection} (matching : Matching [] [] rejection another)
    (lengths : tokens.length = others.length) :
    rejection.place tokens = another.place others := by
  cases matching with
  | unexpected behind | overflow _ behind =>
      have same := behind.length_eq
      simp only [List.length_nil, Nat.add_zero] at same
      rw [Rejection.place, Rejection.place, lengths, same]

theorem TokenStream.faultOf_unexpected (used rest : List Token) :
    (⟨used ++ rest, none⟩ : TokenStream).faultOf (.unexpected rest) =
      Fault.atPlace (used ++ rest) ((Rejection.unexpected rest).place (used ++ rest)) := by
  rw [Rejection.place, List.length_append, Nat.add_sub_cancel]
  cases rest with
  | nil => simp [faultOf, lastLine, Fault.atPlace]
  | cons token rest => simp [faultOf, Fault.atPlace]

theorem TokenStream.faultOf_eq_atPlace (failure : Program.ofTokens tokens = .error rejection) :
    (⟨tokens, none⟩ : TokenStream).faultOf rejection =
      Fault.atPlace tokens (rejection.place tokens) := by
  cases Program.stuck_of_ofTokens failure with
  | unexpected used => exact faultOf_unexpected _ _
  | @behindOverflow literal rest used =>
      have split : used ++ literal :: rest = (used ++ [literal]) ++ rest := by simp
      rw [split]
      exact faultOf_unexpected _ _
  | @overflow literal next rest used =>
      have place : (Rejection.overflow literal (next :: rest)).place
          (used ++ literal :: next :: rest) = used.length := by
        simp only [Rejection.place, List.length_append, List.length_cons]
        omega
      rw [place]
      simp [faultOf, Fault.atPlace]

theorem Program.ofSource_eq_error_atPlace {place : Nat}
    (stream : TokenStream.ofSource source = ⟨tokens, none⟩)
    (refused : Program.refusedAt? tokens = some place) :
    Program.ofSource source = .error (Fault.atPlace tokens place) := by
  unfold Program.refusedAt? at refused
  split at refused
  · cases refused
  case h_2 rejection failure =>
    cases refused
    rw [← TokenStream.faultOf_eq_atPlace failure, Program.ofSource, stream, TokenStream.parse]
    simp only [failure]

theorem Program.ofSource_of_ofTokens {program : Program}
    (stream : TokenStream.ofSource source = ⟨tokens, none⟩)
    (accepted : Program.ofTokens tokens = .ok program) :
    Program.ofSource source = .ok program := by
  rw [Program.ofSource, stream, TokenStream.parse]
  simp only [accepted]

theorem Program.refusedAt?_of_kinds (kinds : tokens.map Token.kind = others.map Token.kind)
    (overflows : tokens.map Token.overflows = others.map Token.overflows) :
    (∃ program another, Program.ofTokens tokens = .ok program ∧
      Program.ofTokens others = .ok another) ∨
    ∃ place, Program.refusedAt? tokens = some place ∧ Program.refusedAt? others = some place := by
  obtain accepted | ⟨rejection, another, failure, second, matching⟩ :=
    Program.ofTokens_of_aligned (aligned_of_kinds kinds overflows)
  · exact .inl accepted
  · have lengths : tokens.length = others.length := by
      simpa using congrArg List.length kinds
    refine .inr ⟨rejection.place tokens, ?_, ?_⟩
    · rw [Program.refusedAt?, failure]
    · rw [Program.refusedAt?, second, matching.place_eq lengths]

/-! ## Programs -/

theorem Program.eq_of_derives {program another : Program}
    (derivation : Derives .program tokens program) (other : Derives .program tokens another) :
    program = another :=
  (derivation.determined rfl other rfl (ends_nil _) (ends_nil _)).2

/-- Of legible tokens, the kinds are all that shows when they are blank. -/
theorem Token.blank_eq {token other : Token} (legible : token.kind.Legible token.text.toList)
    (otherLegible : other.kind.Legible other.text.toList) (kind : token.kind = other.kind) :
    token.blank = other.blank := by
  obtain ⟨kind, text, line⟩ := token
  obtain ⟨_, otherText, otherLine⟩ := other
  cases kind
  cases kind with
  | decimal =>
      have shape : Shape.decimal text.toList = true := legible.1
      have otherShape : Shape.decimal otherText.toList = true := otherLegible.1
      simp [Token.blank, Token.blankText, shape, otherShape]
  | _ => rfl

theorem Token.map_blank_eq (legible : Legible tokens) (otherLegible : Legible others)
    (kinds : tokens.map Token.kind = others.map Token.kind) :
    tokens.map Token.blank = others.map Token.blank := by
  induction tokens generalizing others with
  | nil =>
      obtain rfl := List.map_eq_nil_iff.mp kinds.symm
      rfl
  | cons token tokens induction =>
      obtain ⟨other, others, rfl, kind, rest⟩ := List.map_eq_cons_iff.mp kinds.symm
      obtain ⟨first, behind⟩ := legible_cons.mp legible
      obtain ⟨otherFirst, otherBehind⟩ := legible_cons.mp otherLegible
      rw [List.map_cons, List.map_cons, induction behind otherBehind rest.symm,
        Token.blank_eq first otherFirst kind.symm]

theorem Program.erased_eq_of_blank {program another : Program}
    (accepted : Program.ofTokens tokens = .ok program)
    (second : Program.ofTokens others = .ok another)
    (blank : tokens.map Token.blank = others.map Token.blank) :
    program.erased = another.erased := by
  have derivation := (Program.derives_of_ofTokens accepted).erased
  have other := (Program.derives_of_ofTokens second).erased
  rw [blank] at derivation
  exact Program.eq_of_derives derivation other

/-! ## Sources that differ in lines only -/

theorem Token.map_relined_eq (kinds : tokens.map Token.kind = others.map Token.kind)
    (texts : tokens.map Token.text = others.map Token.text) :
    tokens.map (Token.relined fun _ => 0) = others.map (Token.relined fun _ => 0) := by
  induction tokens generalizing others with
  | nil =>
      obtain rfl := List.map_eq_nil_iff.mp kinds.symm
      rfl
  | cons token tokens induction =>
      obtain ⟨other, others, rfl, kind, rest⟩ := List.map_eq_cons_iff.mp kinds.symm
      obtain ⟨text, behind⟩ := List.cons.inj texts
      simp [Token.relined, kind, text, induction rest.symm behind]

theorem Program.eq_of_relined {program another : Program}
    (accepted : Program.ofTokens tokens = .ok program)
    (second : Program.ofTokens others = .ok another)
    (relined : tokens.map (Token.relined fun _ => 0) = others.map (Token.relined fun _ => 0)) :
    program = another := by
  have derivation := (Program.derives_of_ofTokens accepted).relined fun _ => 0
  have other := (Program.derives_of_ofTokens second).relined fun _ => 0
  rw [relined] at derivation
  exact Program.eq_of_derives derivation other

/-- What is reported about a place is its text, on some line. -/
theorem Fault.atPlace_eq (tokens : List Token) (place : Nat) :
    ∃ line, Fault.atPlace tokens place =
      .syntactic ((tokens.map Token.text)[place]?.getD Fault.endMark) line := by
  rw [List.getElem?_map, Fault.atPlace]
  cases tokens[place]? with
  | none => exact ⟨_, rfl⟩
  | some token => exact ⟨token.line, rfl⟩

/-- How names and literals are spelled has no influence on whether and where a source is
refused, and none on the program without them; where tokens are laid out has influence on
the line of a fault only. -/
theorem Program.ofSource_respelled
    (read : (Reader.ofSource source).tokenize.1 = .ok tokens)
    (otherRead : (Reader.ofSource other).tokenize.1 = .ok others)
    (kinds : tokens.map Token.kind = others.map Token.kind) :
    (tokens.map Token.overflows = others.map Token.overflows →
      (∃ program another, Program.ofSource source = .ok program ∧
        Program.ofSource other = .ok another ∧ program.erased = another.erased) ∨
      ∃ place, Program.refusedAt? tokens = some place ∧
        Program.refusedAt? others = some place ∧
        Program.ofSource source = .error (Fault.atPlace tokens place) ∧
        Program.ofSource other = .error (Fault.atPlace others place)) ∧
    (tokens.map Token.text = others.map Token.text →
      (∃ program, Program.ofSource source = .ok program ∧
        Program.ofSource other = .ok program) ∨
      ∃ text line otherLine, Program.ofSource source = .error (.syntactic text line) ∧
        Program.ofSource other = .error (.syntactic text otherLine)) := by
  have stream := TokenStream.tokenize_eq_ok_iff.mp read
  have otherStream := TokenStream.tokenize_eq_ok_iff.mp otherRead
  constructor
  · intro overflows
    obtain ⟨program, another, accepted, second⟩ | ⟨place, refused, second⟩ :=
      Program.refusedAt?_of_kinds kinds overflows
    · have legible : Legible tokens := by
        intro token member
        exact TokenStream.legible_of_mem (by rwa [stream])
      have otherLegible : Legible others := by
        intro token member
        exact TokenStream.legible_of_mem (by rwa [otherStream])
      refine .inl ⟨program, another, Program.ofSource_of_ofTokens stream accepted,
        Program.ofSource_of_ofTokens otherStream second, ?_⟩
      exact Program.erased_eq_of_blank accepted second
        (Token.map_blank_eq legible otherLegible kinds)
    · exact .inr ⟨place, refused, second, Program.ofSource_eq_error_atPlace stream refused,
        Program.ofSource_eq_error_atPlace otherStream second⟩
  · intro texts
    have relined := Token.map_relined_eq kinds texts
    have overflows : tokens.map Token.overflows = others.map Token.overflows := by
      have kept : Token.overflows ∘ Token.relined (fun _ => 0) = Token.overflows := rfl
      rw [← kept, ← List.map_map, relined, List.map_map]
    obtain ⟨program, another, accepted, second⟩ | ⟨place, refused, second⟩ :=
      Program.refusedAt?_of_kinds kinds overflows
    · obtain rfl := Program.eq_of_relined accepted second relined
      exact .inl ⟨program, Program.ofSource_of_ofTokens stream accepted,
        Program.ofSource_of_ofTokens otherStream second⟩
    · obtain ⟨line, fault⟩ := Fault.atPlace_eq tokens place
      obtain ⟨otherLine, otherFault⟩ := Fault.atPlace_eq others place
      have first := Program.ofSource_eq_error_atPlace stream refused
      have behind := Program.ofSource_eq_error_atPlace otherStream second
      rw [fault, texts] at first
      rw [otherFault] at behind
      exact .inr ⟨_, line, otherLine, first, behind⟩

/-- Sheets of two names and sizes, and an assignment without a value on one line and on
two. -/
theorem Program.ofSource_respelled_sizes :
    (∃ program another,
      Program.ofSource "sheet SH = 007*-1 print_sheet SH" = .ok program ∧
        Program.ofSource "sheet TAB =\n3 * 4\nprint_sheet A" = .ok another ∧
        program.erased = another.erased) ∧
    ∃ text line otherLine, Program.ofSource "xs := then" = .error (.syntactic text line) ∧
      Program.ofSource "xs ... ...\n:= then" = .error (.syntactic text otherLine) := by
  have first : (Reader.ofSource "sheet SH = 007*-1 print_sheet SH").tokenize.1 =
      .ok [⟨.keyword .sheet, "sheet", 1⟩, ⟨.sheetName, "SH", 1⟩, ⟨.symbol .equal, "=", 1⟩,
        ⟨.integer, "007", 1⟩, ⟨.symbol .times, "*", 1⟩, ⟨.integer, "-1", 1⟩,
        ⟨.keyword .printSheet, "print_sheet", 1⟩, ⟨.sheetName, "SH", 1⟩] :=
    TokenStream.tokenize_eq_ok_iff.mpr (by decide)
  have second : (Reader.ofSource "sheet TAB =\n3 * 4\nprint_sheet A").tokenize.1 =
      .ok [⟨.keyword .sheet, "sheet", 1⟩, ⟨.sheetName, "TAB", 1⟩, ⟨.symbol .equal, "=", 1⟩,
        ⟨.integer, "3", 2⟩, ⟨.symbol .times, "*", 2⟩, ⟨.integer, "4", 2⟩,
        ⟨.keyword .printSheet, "print_sheet", 3⟩, ⟨.sheetName, "A", 3⟩] :=
    TokenStream.tokenize_eq_ok_iff.mpr (by decide)
  have third : (Reader.ofSource "xs := then").tokenize.1 =
      .ok [⟨.ident, "xs", 1⟩, ⟨.symbol .assign, ":=", 1⟩, ⟨.keyword .then, "then", 1⟩] :=
    TokenStream.tokenize_eq_ok_iff.mpr (by decide)
  have fourth : (Reader.ofSource "xs ... ...\n:= then").tokenize.1 =
      .ok [⟨.ident, "xs", 1⟩, ⟨.symbol .assign, ":=", 2⟩, ⟨.keyword .then, "then", 2⟩] :=
    TokenStream.tokenize_eq_ok_iff.mpr (by decide)
  constructor
  · obtain accepted | ⟨place, refused, -⟩ :=
      (Program.ofSource_respelled first second rfl).1 (by decide)
    · exact accepted
    · cases refused
  · obtain ⟨program, accepted, -⟩ | refused :=
      (Program.ofSource_respelled third fourth rfl).2 rfl
    · rw [Program.ofSource, TokenStream.tokenize_eq_ok_iff.mp third] at accepted
      cases accepted
    · exact refused

end SheetLang
