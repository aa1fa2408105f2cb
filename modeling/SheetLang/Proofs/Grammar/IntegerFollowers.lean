import SheetLang.Grammar.Sentence
import SheetLang.Proofs.Grammar.Openings

/-!
# What follows whole numbers

Whole numbers are columns and rows, behind which a comma or a bracket stands, and
the width and height of a sheet.  Nothing comes behind the height within the
definition of the sheet, but as a program ends with statements, there is always
another definition or a statement.
-/

namespace SheetLang

open Grammar Parser

/-- Whether the last token that derives from a nonterminal may be a whole number. -/
def Nonterminal.endsInInteger : Nonterminal → Bool
  | contents | variableDefinition | definition => true
  | many item | separated item => item.endsInInteger
  | _ => false

/-- Lists of items that end in whole numbers go on with what may follow them. -/
def Nonterminal.Coherent : Nonterminal → Prop
  | many item => item.Coherent ∧
      (item.endsInInteger = true → ∀ kind, item.starts kind = true → followsInteger kind = true)
  | separated item => item.Coherent ∧ item.endsInInteger = false
  | _ => True

/-- Every whole number is followed by a token that may follow one, or by nothing. -/
def Followed : List Token → Prop
  | [] => True
  | token :: rest =>
    (token.kind = .integer → ∀ next ∈ rest.head?, followsInteger next.kind = true) ∧ Followed rest

/-- Behind the tokens anything may stand whose whole numbers are followed; if the
tokens are open, it has to begin like something that follows whole numbers. -/
def Settled (isOpen : Bool) (tokens : List Token) : Prop :=
  ∀ rest, Followed rest →
    (isOpen = true → ∀ next ∈ rest.head?, followsInteger next.kind = true) →
    Followed (tokens ++ rest)

namespace Settled

theorem nil : Settled isOpen [] :=
  fun _ later _ => later

theorem cons {token : Token} {rest : List Token} (other : token.kind ≠ .integer)
    (settled : Settled isOpen rest) : Settled isOpen (token :: rest) := by
  intro more later behind
  exact ⟨fun number => absurd number other, settled more later behind⟩

theorem mark {symbol : Symbol} {writing : Writing} (settled : Settled isOpen rest) :
    Settled isOpen (Grammar.mark symbol writing :: rest) :=
  cons (by simp [Grammar.mark]) settled

theorem word {keyword : Keyword} {writing : Writing} (settled : Settled isOpen rest) :
    Settled isOpen (Grammar.word keyword writing :: rest) :=
  cons (by simp [Grammar.word]) settled

theorem integer {text : String} {line : Nat} {next : Token} {rest : List Token}
    (follows : followsInteger next.kind = true) (settled : Settled isOpen (next :: rest)) :
    Settled isOpen (⟨.integer, text, line⟩ :: next :: rest) := by
  intro more later behind
  exact ⟨fun _ => by simpa using follows, settled more later behind⟩

theorem append (settled : Settled false front) (later : Settled isOpen back) :
    Settled isOpen (front ++ back) := by
  intro rest behind follows
  rw [List.append_assoc]
  exact settled _ (later rest behind follows) (by simp)

theorem mono (settled : Settled false tokens) : Settled isOpen tokens := by
  have empty : Settled isOpen [] := nil
  simpa using settled.append empty

/-- What ends in a whole number may stand before what begins like something that
follows one. -/
theorem append_opens (A : Nonterminal) (settled : Settled true front)
    (later : Settled isOpen back) (opens : Opens A back)
    (follows : ∀ kind, A.starts kind = true → followsInteger kind = true) :
    Settled isOpen (front ++ back) := by
  intro rest behind more
  obtain ⟨token, others, rfl, start⟩ := opens
  rw [List.append_assoc]
  exact settled _ (later rest behind more) fun _ => by simpa using follows _ start

theorem info (announced : Info tokens written) : Settled isOpen tokens := by
  cases announced with
  | absent => exact nil
  | present => exact cons (by simp) nil

end Settled

theorem followsInteger_of_startsDefinition {kind : Token.Kind}
    (start : startsDefinition kind = true) : followsInteger kind = true := by
  unfold followsInteger
  split
  all_goals simp_all

theorem followsInteger_of_startsStatement {kind : Token.Kind}
    (start : startsStatement kind = true) : followsInteger kind = true := by
  unfold followsInteger
  split
  all_goals simp_all

theorem coherent_definitions : (Nonterminal.many .definition).Coherent :=
  ⟨trivial, fun _ _ => followsInteger_of_startsDefinition⟩

theorem coherent_locals : (Nonterminal.many .variableDefinition).Coherent :=
  ⟨trivial, fun _ _ start =>
    followsInteger_of_startsDefinition (startsDefinition_of_startsVariable start)⟩

/-- Every whole number in a derivation is followed by what may follow one. -/
theorem Derives.settled (derivation : Derives A tokens value) (coherent : A.Coherent) :
    Settled A.endsInInteger tokens := by
  induction derivation with
  | manyNil => exact .nil
  | @manyCons _ _ A _ _ first others firstSettled othersSettled =>
      intro rest later behind
      rw [List.append_assoc]
      refine firstSettled coherent.1 _ (othersSettled coherent rest later behind) fun ends => ?_
      rcases others.many_opens with ⟨token, more, rfl, start⟩ | rfl
      · simpa using coherent.2 ends _ start
      · exact behind ends
  | separatedOne _ only => exact only coherent.1
  | @separatedCons _ _ _ A _ _ _ _ firstSettled othersSettled =>
      have first : Settled false _ := coherent.2 ▸ firstSettled coherent.1
      exact first.append (.mark (othersSettled coherent))
  | part _ _ _ rangeSettled =>
      refine Settled.append (rangeSettled trivial) (.mark ?_)
      exact .integer rfl (.mark (.integer rfl (.mark .nil)))
  | size =>
      refine .integer rfl (.mark fun rest later behind => ?_)
      exact ⟨fun _ => behind rfl, later⟩
  | function _ _ _ statements parameters returnType locals body =>
      refine .append (.append_opens .block ?_ (body trivial) (statements.opens rfl)
        fun _ => followsInteger_of_startsStatement) (.word .nil)
      refine .append (.append ?_ (.word (returnType trivial))) (.word (locals coherent_locals))
      exact .word (.cons (by simp) (parameters trivial))
  | subroutine _ _ statements parameters locals body =>
      refine .append (.append_opens .block ?_ (body trivial) (statements.opens rfl)
        fun _ => followsInteger_of_startsStatement) (.word .nil)
      refine .append ?_ (.word (locals coherent_locals))
      exact .word (.cons (by simp) (parameters trivial))
  | program _ statements definitions body =>
      exact .append_opens .block (definitions coherent_definitions) (body trivial)
        (statements.opens rfl) fun _ => followsInteger_of_startsStatement
  | _ =>
      simp_all [Nonterminal.Coherent, Nonterminal.endsInInteger] <;>
      grind [Settled.append, Settled.cons, Settled.nil, Settled.mono, Settled.info,
        Settled.mark, Settled.word]

/-- No program ends in a whole number, and what stands behind one may follow it. -/
theorem followed_of_program (derivation : Derives .program tokens program) (rest : List Token)
    (later : Followed rest) : Followed (tokens ++ rest) :=
  derivation.settled trivial rest later (by simp [Nonterminal.endsInInteger])

theorem Followed.next {before rest : List Token} {literal next : Token}
    (followed : Followed (before ++ literal :: next :: rest)) (number : literal.kind = .integer) :
    followsInteger next.kind = true := by
  induction before with
  | nil => exact followed.1 number next rfl
  | cons token before induction => exact induction followed.2

/-! ## Sentences -/

theorem followsInteger_of_sentence {before after : List Token.Kind} {kind : Token.Kind}
    (sentence : Sentence (before ++ .integer :: kind :: after)) : followsInteger kind = true := by
  obtain ⟨tokens, program, kinds, derivation⟩ := sentence
  obtain ⟨front, back, rfl, _, kinds⟩ := List.map_eq_append_iff.mp kinds
  obtain ⟨literal, others, rfl, number, kinds⟩ := List.map_eq_cons_iff.mp kinds
  obtain ⟨next, rest, rfl, rfl, _⟩ := List.map_eq_cons_iff.mp kinds
  have followed := followed_of_program derivation [] trivial
  rw [List.append_nil] at followed
  exact followed.next number

theorem not_sentence_of_integer (before : List Token.Kind) :
    ¬Sentence (before ++ [.integer]) := by
  intro sentence
  obtain ⟨tokens, program, kinds, derivation⟩ := sentence
  obtain ⟨front, back, rfl, _, kinds⟩ := List.map_eq_append_iff.mp kinds
  obtain ⟨literal, others, rfl, number, kinds⟩ := List.map_eq_cons_iff.mp kinds
  obtain rfl := List.map_eq_nil_iff.mp kinds
  -- A closing bracket may not follow the number, though anything that is followed may.
  have followed := followed_of_program derivation [mark .rightParen ("", 0)] (by simp [Followed])
  rw [List.append_assoc] at followed
  have impossible := followed.next number
  cases impossible

end SheetLang
