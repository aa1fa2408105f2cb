import SheetLang.Proofs.Program.Names
import SheetLang.TokenStream.Layout

/-!
# Layouts are read back

Valid tokens are the legible ones, so every token of a layout is read as what it is: in
front of it stand blanks only, and behind it a blank or nothing.  The blanks bring the
reader to the line of the token.

As the tokens of any source are legible and stand in the order of their lines, every
source has the same tokens as a layout.
-/

namespace SheetLang

/-- A token is valid exactly if it can be read. -/
theorem Token.valid_iff_legible {token : Token} :
    token.Valid ↔ token.kind.Legible token.text.toList := by
  obtain ⟨kind, text, line⟩ := token
  cases kind with
  | keyword word =>
      rw [legible_iff_admits (fun other => by cases other <;> rfl) (by simp)]
      simp [Token.Valid, Token.Kind.admits, String.toList_inj]
  | symbol mark =>
      rw [legible_iff_admits (fun other => by cases other <;> rfl) (by simp)]
      simp [Token.Valid, Token.Kind.admits, String.toList_inj]
  | ident => exact legible_ident_iff.symm
  | coordinate => exact legible_coordinate_iff.symm
  | rangeName => exact legible_rangeName_iff.symm
  | sheetName => exact legible_sheetName_iff.symm
  | funcName => exact legible_funcName_iff.symm
  | integer => exact legible_integer_iff.symm
  | decimal => exact legible_decimal_iff.symm
  | info =>
      constructor
      · intro valid
        refine ⟨valid.1, ?_, fun _ => valid.2⟩
        intro other beats
        cases other <;> cases beats
      · intro legible
        exact ⟨legible.1, legible.2.2 rfl⟩

namespace TokenStream

variable {tokens rest : List Token} {token : Token} {line : Nat} {source : String}

/-! ## Layouts -/

/-- Line breaks bring the reader to a later line. -/
theorem ofLexemes_cut_breaks (count line : Nat) (text : List Char) :
    ofLexemes line (Lexeme.cut (List.replicate count '\n' ++ text)) =
      ofLexemes (line + count) (Lexeme.cut text) := by
  induction count generalizing line with
  | zero => rfl
  | succ count induction =>
      have stands : Stands ('\n' :: (List.replicate count '\n' ++ text)) (.gap ['\n']) :=
        .blank (Or.inr (Or.inr rfl))
      rw [List.replicate_succ, List.cons_append, Lexeme.cut_of_stands stands]
      simp only [ofLexemes, Lexeme.text, List.length_singleton, List.drop_succ_cons,
        List.drop_zero, List.count_singleton_self]
      rw [induction (line + 1), Nat.add_assoc, Nat.add_comm 1 count]

theorem ofLexemes_cut_gapBefore (ahead : line ≤ token.line) (text : List Char) :
    ofLexemes line (Lexeme.cut (gapBefore line token ++ text)) =
      ofLexemes token.line (Lexeme.cut text) := by
  unfold gapBefore
  by_cases same : token.line = line
  · have stands : Stands (' ' :: text) (.gap [' ']) := .blank (Or.inl rfl)
    rw [if_pos same, List.singleton_append, Lexeme.cut_of_stands stands, same]
    rfl
  · rw [if_neg same, ofLexemes_cut_breaks, Nat.add_sub_cancel' ahead]

theorem seam_layoutBehind (ahead : ∀ token ∈ tokens, line ≤ token.line) :
    Seam (layoutBehind line tokens) := by
  cases tokens with
  | nil => exact seam_nil
  | cons token rest =>
      have first := ahead token List.mem_cons_self
      unfold layoutBehind gapBefore
      by_cases same : token.line = line
      · rw [if_pos same]
        exact seam_cons.mpr (Or.inl rfl)
      · obtain ⟨breaks, more⟩ : ∃ breaks, token.line - line = breaks + 1 :=
          ⟨token.line - line - 1, by omega⟩
        rw [if_neg same, more, List.replicate_succ]
        exact seam_cons.mpr (Or.inr (Or.inr rfl))

theorem ofLexemes_cut_layoutBehind (valid : ∀ token ∈ tokens, token.Valid)
    (ahead : ∀ token ∈ tokens, line ≤ token.line)
    (ascending : tokens.Pairwise fun token later => token.line ≤ later.line) :
    ofLexemes line (Lexeme.cut (layoutBehind line tokens)) = ⟨tokens, none⟩ := by
  induction tokens generalizing line with
  | nil => rfl
  | cons token rest induction =>
      obtain ⟨first, others⟩ := List.forall_mem_cons.mp valid
      obtain ⟨later, restAscending⟩ := List.pairwise_cons.mp ascending
      rw [layoutBehind, List.append_assoc,
        ofLexemes_cut_gapBefore (ahead token List.mem_cons_self),
        ofLexemes_cut_of_legible (Token.valid_iff_legible.mp first) (seam_layoutBehind later),
        induction others later restAscending]

theorem ofSource_layout (orderly : Orderly tokens) : ofSource (layout tokens) = ⟨tokens, none⟩ := by
  cases tokens with
  | nil => rfl
  | cons first rest =>
      have counted : 1 + (first.line - 1) = first.line :=
        Nat.add_sub_cancel' (orderly.counted first List.mem_cons_self)
      obtain ⟨valid, others⟩ := List.forall_mem_cons.mp orderly.valid
      obtain ⟨later, ascending⟩ := List.pairwise_cons.mp orderly.ascending
      have legible := Token.valid_iff_legible.mp valid
      calc
        ofSource (layout (first :: rest))
        _ = ofLexemes first.line
            (Lexeme.cut (first.text.toList ++ layoutBehind first.line rest)) := by
          rw [ofSource, layout, String.toList_ofList, List.append_assoc, ofLexemes_cut_breaks,
            counted]
        _ = ⟨first :: (ofLexemes first.line (Lexeme.cut (layoutBehind first.line rest))).tokens,
              (ofLexemes first.line (Lexeme.cut (layoutBehind first.line rest))).fault⟩ :=
          ofLexemes_cut_of_legible legible (seam_layoutBehind later)
        _ = ⟨first :: rest, none⟩ := by
          rw [ofLexemes_cut_layoutBehind others later ascending]

/-! ## Sources -/

theorem le_line_of_mem {lexemes : List Lexeme} (member : token ∈ (ofLexemes line lexemes).tokens) :
    line ≤ token.line := by
  induction lexemes generalizing line with
  | nil => cases member
  | cons lexeme later induction =>
      cases lexeme with
      | gap text => exact Nat.le_trans (Nat.le_add_right _ _) (induction member)
      | token kind text =>
          cases List.mem_cons.mp member with
          | inl same => exact same ▸ Nat.le_refl line
          | inr behind => exact induction behind
      | illegal character tail => cases member

theorem ascending_ofLexemes (line : Nat) (lexemes : List Lexeme) :
    (ofLexemes line lexemes).tokens.Pairwise fun token later => token.line ≤ later.line := by
  induction lexemes generalizing line with
  | nil => exact List.Pairwise.nil
  | cons lexeme later induction =>
      cases lexeme with
      | gap text => exact induction _
      | token kind text =>
          refine List.pairwise_cons.mpr ⟨?_, induction line⟩
          intro token behind
          exact le_line_of_mem behind
      | illegal character tail => exact List.Pairwise.nil

theorem orderly_ofSource (source : String) : Orderly (ofSource source).tokens where
  valid _ member := Token.valid_iff_legible.mpr (legible_of_mem member)
  counted _ member := le_line_of_mem member
  ascending := ascending_ofLexemes 1 _

theorem complete_eq_ok_iff {stream : TokenStream} :
    stream.complete = .ok tokens ↔ stream = ⟨tokens, none⟩ := by
  obtain ⟨read, fault⟩ := stream
  cases fault <;> simp [complete]

theorem tokenize_eq_ok_iff :
    (Reader.ofSource source).tokenize.1 = .ok tokens ↔ ofSource source = ⟨tokens, none⟩ :=
  complete_eq_ok_iff

/-- Tokenizing undoes the layout of any orderly tokens, and the tokens of every source
are orderly, so that the layout of a source has its tokens. -/
theorem tokenize_layout :
    (∀ tokens, Orderly tokens → (Reader.ofSource (layout tokens)).tokenize.1 = .ok tokens) ∧
    ∀ source tokens, (Reader.ofSource source).tokenize.1 = .ok tokens →
      Orderly tokens ∧ (Reader.ofSource (layout tokens)).tokenize.1 = .ok tokens := by
  have read (tokens : List Token) (orderly : Orderly tokens) :
      (Reader.ofSource (layout tokens)).tokenize.1 = .ok tokens :=
    tokenize_eq_ok_iff.mpr (ofSource_layout orderly)
  refine ⟨read, ?_⟩
  intro source tokens tokenized
  have orderly := orderly_ofSource source
  rw [tokenize_eq_ok_iff.mp tokenized] at orderly
  exact ⟨orderly, read tokens orderly⟩

/-- Two dots, an info string that looks like a comment and a minus in front of a negative
number, from the second line on. -/
theorem tokenize_layout_info_behind_dots :
    Orderly [⟨.symbol .dots, "..", 2⟩, ⟨.info, "!... '= ...!", 2⟩, ⟨.symbol .minus, "-", 4⟩,
      ⟨.decimal, "-07.5", 4⟩] ∧
    (Reader.ofSource "\n.. !... '= ...!\n\n- -07.5").tokenize.1 =
      .ok [⟨.symbol .dots, "..", 2⟩, ⟨.info, "!... '= ...!", 2⟩, ⟨.symbol .minus, "-", 4⟩,
        ⟨.decimal, "-07.5", 4⟩] := by
  have orderly : Orderly [⟨.symbol .dots, "..", 2⟩, ⟨.info, "!... '= ...!", 2⟩,
      ⟨.symbol .minus, "-", 4⟩, ⟨.decimal, "-07.5", 4⟩] := by
    refine ⟨?_, by decide, by decide⟩
    simp only [List.forall_mem_cons, List.not_mem_nil, false_imp_iff, implies_true, and_true]
    exact ⟨rfl, ⟨by decide, by decide⟩, rfl, (by decide : Shape.decimal "-07.5".toList = true)⟩
  have text : layout [⟨.symbol .dots, "..", 2⟩, ⟨.info, "!... '= ...!", 2⟩,
      ⟨.symbol .minus, "-", 4⟩, ⟨.decimal, "-07.5", 4⟩] = "\n.. !... '= ...!\n\n- -07.5" :=
    String.toList_injective (by decide)
  exact ⟨orderly, text ▸ tokenize_layout.1 _ orderly⟩

end TokenStream

end SheetLang
