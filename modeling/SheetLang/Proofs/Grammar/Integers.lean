import Mathlib.Data.List.Basic
import Mathlib.Data.Option.Basic
import Mathlib.Data.Prod.Basic
import SheetLang.Grammar
import SheetLang.Program.Integers

/-!
# Whole numbers in derivations

The whole numbers of a program are those of its tokens, in the same order, each in the place
that the symbol in front of it tells.
-/

namespace SheetLang

open Grammar

variable {tokens front back rest : List Token} {numbers more : List (IntegerField × Int64)}

/-! ## Whole numbers of tokens -/

/-- The place and the value of a whole number behind another token. -/
def Token.integer? (sign literal : Token) : Option (Option IntegerField × Option Int64) :=
  if literal.kind = .integer then
    some (IntegerField.behind? sign.kind, Literal.int64? literal.text)
  else
    none

def Token.integers : List Token → List (Option IntegerField × Option Int64)
  | sign :: literal :: rest =>
    (Token.integer? sign literal).toList ++ Token.integers (literal :: rest)
  | _ => []

/-- Tokens of which a whole number is not the first. -/
def StartsPlain (tokens : List Token) : Prop :=
  ∀ token ∈ tokens.head?, token.kind ≠ .integer

theorem StartsPlain.of_append_cons {token : Token} (plain : StartsPlain (front ++ token :: back)) :
    StartsPlain (front ++ [token]) := by
  cases front with
  | nil => exact plain
  | cons first front => exact plain

namespace Token

theorem integers_cons_of_plain (token : Token) (plain : StartsPlain rest) :
    integers (token :: rest) = integers rest := by
  cases rest with
  | nil => rfl
  | cons next rest =>
      rw [integers, integer?, if_neg (plain next rfl)]
      rfl

theorem integers_append_of_plain (front : List Token) (plain : StartsPlain back) :
    integers (front ++ back) = integers front ++ integers back := by
  induction front with
  | nil => rfl
  | cons token front induction =>
      cases front with
      | nil => exact integers_cons_of_plain token plain
      | cons next front =>
          simp only [List.cons_append, integers] at induction ⊢
          rw [induction, List.append_assoc]

theorem integers_cons_congr {token : Token} (other : Token) (kind : token.kind = other.kind)
    (rest : List Token) : integers (token :: rest) = integers (other :: rest) := by
  cases rest with
  | nil => rfl
  | cons next rest => rw [integers, integers, integer?, integer?, kind]

theorem length_integers_cons (token : Token) (tokens : List Token) :
    (integers (token :: tokens)).length = tokens.countP (·.kind = .integer) := by
  induction tokens generalizing token with
  | nil => rfl
  | cons next tokens induction =>
      rw [integers, List.length_append, induction, List.countP_cons, integer?, Nat.add_comm]
      by_cases number : next.kind = .integer <;> simp [number]

theorem length_integers (plain : StartsPlain tokens) :
    (integers tokens).length = tokens.countP (·.kind = .integer) := by
  cases tokens with
  | nil => rfl
  | cons token tokens =>
      rw [length_integers_cons, List.countP_cons_of_neg (by simpa using plain token rfl)]

section Literals

variable {literal other : Token} (number : literal.kind = .integer)

include number

theorem integers_split (front : List Token) (sign : Token) (back : List Token) :
    integers (front ++ sign :: literal :: back) =
      integers (front ++ [sign]) ++
        (IntegerField.behind? sign.kind, Literal.int64? literal.text) ::
          integers (literal :: back) := by
  induction front with
  | nil =>
      rw [List.nil_append, integers, integer?, if_pos number]
      rfl
  | cons token front induction =>
      cases front with
      | nil => simp [integers, integer?, number]
      | cons next front =>
          simp only [List.cons_append, integers] at induction ⊢
          rw [induction, List.append_assoc]

theorem getElem?_integers (front : List Token) (sign : Token) (back : List Token) :
    (integers (front ++ sign :: literal :: back))[(integers (front ++ [sign])).length]? =
      some (IntegerField.behind? sign.kind, Literal.int64? literal.text) := by
  rw [integers_split number, List.getElem?_append_right (Nat.le_refl _), Nat.sub_self,
    List.getElem?_cons_zero]

/-- With another whole number in the place of one, that one changes. -/
theorem integers_set (otherNumber : other.kind = .integer) (front : List Token) (sign : Token)
    (back : List Token) :
    integers (front ++ sign :: other :: back) =
      (integers (front ++ sign :: literal :: back)).set (integers (front ++ [sign])).length
        (IntegerField.behind? sign.kind, Literal.int64? other.text) := by
  rw [integers_split number, integers_split otherNumber,
    List.set_append_right _ _ (Nat.le_refl _), Nat.sub_self, List.set_cons_zero,
    integers_cons_congr literal (otherNumber.trans number.symm)]

end Literals

end Token

/-! ## Derivations -/

/-- The tokens begin with no whole number and have these. -/
structure Numbered (tokens : List Token) (numbers : List (IntegerField × Int64)) : Prop where
  plain : StartsPlain tokens
  same : Token.integers tokens = numbers.map (Prod.map some some)

namespace Numbered

theorem nil : Numbered [] [] :=
  ⟨nofun, rfl⟩

theorem cons {token : Token} (other : token.kind ≠ .integer) (numbered : Numbered rest numbers) :
    Numbered (token :: rest) numbers := by
  refine ⟨fun first same => ?_, ?_⟩
  · cases same
    exact other
  · rw [Token.integers_cons_of_plain token numbered.plain, numbered.same]

theorem mark {symbol : Symbol} {writing : Writing} (numbered : Numbered rest numbers) :
    Numbered (Grammar.mark symbol writing :: rest) numbers :=
  cons (by simp [Grammar.mark]) numbered

theorem word {keyword : Keyword} {writing : Writing} (numbered : Numbered rest numbers) :
    Numbered (Grammar.word keyword writing :: rest) numbers :=
  cons (by simp [Grammar.word]) numbered

theorem append (numbered : Numbered front numbers) (later : Numbered back more) :
    Numbered (front ++ back) (numbers ++ more) := by
  refine ⟨?_, ?_⟩
  · cases front with
    | nil => exact later.plain
    | cons token front => exact numbered.plain
  · rw [Token.integers_append_of_plain front later.plain, numbered.same, later.same,
      List.map_append]

theorem concat {token : Token} (numbered : Numbered front numbers)
    (other : token.kind ≠ .integer) : Numbered (front ++ [token]) numbers := by
  have last := numbered.append (cons other nil)
  rwa [List.append_nil] at last

theorem info {written : Option String} (announced : Info tokens written) :
    Numbered tokens [] := by
  cases announced with
  | absent => exact nil
  | present => exact cons (by simp) nil

end Numbered

def Nonterminal.integers : (A : Nonterminal) → A.Value → List (IntegerField × Int64)
  | .program, value => Program.integers value
  | .definition, value => Definition.integers value
  | .variableDefinition, value => Variable.integers value
  | .contents, value => SheetContents.integers value
  | .laterRow, value => value.flatMap Expr.integers
  | .parameters, _ => []
  | .parameter, _ => []
  | .returnType, _ => []
  | .block, value => Statement.integersAll value
  | .statement, value => Statement.integers value
  | .call, value => Argument.integersAll value.2
  | .argument, value => Argument.integers value
  | .range, value => RangeExpr.integers value
  | .cell, _ => []
  | .comparison, value => Expr.integers value
  | .sum _, value => Expr.integers value
  | .product _, value => Expr.integers value
  | .operand _, value => Expr.integers value
  | .many item, values => values.flatMap item.integers
  | .separated item, values => values.flatMap item.integers

/-- The symbol in front of what a sheet starts with tells the place of its first number. -/
def Nonterminal.lead : Nonterminal → List Token
  | contents => [mark .equal ("", 0)]
  | _ => []

/-- Lists of items that have no symbol in front of them. -/
def Nonterminal.Leadless : Nonterminal → Prop
  | many item | separated item => item.lead = [] ∧ item.Leadless
  | _ => True

theorem Expr.integers_ofDecimal (text : String) : (Expr.ofDecimal text).integers = [] := by
  unfold ofDecimal
  split <;> rfl

/-- The whole numbers of a phrase are those of its tokens. -/
theorem Derives.integers {A : Nonterminal} {value : A.Value}
    (derivation : Derives A tokens value) (leadless : A.Leadless) :
    Numbered (A.lead ++ tokens) (A.integers value) := by
  induction derivation with
  | manyNil => exact .nil
  | manyCons _ _ first others =>
      have front := first leadless.2
      rw [leadless.1] at front
      exact front.append (others leadless)
  | @separatedOne _ A only _ one =>
      have alone := one leadless.2
      rw [leadless.1] at alone
      have same : (Nonterminal.separated A).integers [only] = A.integers only :=
        List.append_nil _
      exact same ▸ alone
  | separatedCons _ _ first others =>
      have front := first leadless.2
      rw [leadless.1] at front
      exact front.append (.mark (others leadless))
  /- Operands -/
  | name | named | sheetArgument => exact .cons (by simp) .nil
  | decimal =>
      rw [Nonterminal.integers, Expr.integers_ofDecimal]
      exact .cons (by simp) .nil
  | callOperand _ call => exact call trivial
  | cellOperand _ cell => exact cell trivial
  | count _ range => exact .mark (range trivial)
  | parentheses _ value => exact .concat (.mark (value trivial)) (by simp [mark])
  | negate _ value => exact .mark (value trivial)
  | productOne _ value | sumOne _ value | comparisonOne _ value => exact value trivial
  | productCons _ _ _ left right | sumCons _ _ _ left right | comparisonCons _ _ _ left right =>
      exact (left trivial).append (.mark (right trivial))
  /- Ranges, cells and calls -/
  | span _ _ first last => exact .word ((first trivial).append (.mark (last trivial)))
  | callRange _ call => exact .concat (.mark (call trivial)) (by simp [mark])
  | part _ column row range =>
      refine (range trivial).append ⟨?_, ?_⟩
      · simp [StartsPlain, mark]
      · simp [Token.integers, Token.integer?, mark, IntegerField.behind?, column, row]
  | inSheet => exact .cons (by simp) (.mark (.cons (by simp) .nil))
  | currentIn => exact .mark (.mark (.cons (by simp) .nil))
  | current => exact .mark .nil
  | callNone => exact .cons (by simp) (.mark (.mark .nil))
  | callSome _ arguments =>
      have listed := arguments ⟨rfl, trivial⟩
      rw [Nonterminal.integers, Argument.integersAll_eq_flatMap]
      exact .concat (.cons (by simp) (.mark listed)) (by simp [mark])
  | scalarArgument _ value | rangeArgument _ value => exact value trivial
  /- Statements -/
  | block _ _ first others =>
      rw [Nonterminal.integers, Statement.integersAll_eq_flatMap]
      exact (first trivial).append (others ⟨rfl, trivial⟩)
  | printSheet info => exact .concat (.word (.info info)) (by simp)
  | printRange info _ value | printScalar info _ value =>
      exact .word ((Numbered.info info).append (value trivial))
  | branchOne _ _ condition positive =>
      rw [Nonterminal.integers, Statement.integers, Statement.integersElse, List.append_nil]
      exact .concat (.append (.word (condition trivial)) (.word (positive trivial)))
        (by simp [word])
  | branchTwo _ _ _ condition positive negative =>
      refine .concat (.append (.append ?_ (.word (positive trivial))) (.word (negative trivial)))
        (by simp [word])
      exact .word (condition trivial)
  | loop _ _ condition body =>
      exact .concat (.append (.word (condition trivial)) (.word (body trivial))) (by simp [word])
  | traverse _ _ ranges body =>
      refine .concat (.append ?_ (.word (body trivial))) (by simp [word])
      exact .word (ranges ⟨rfl, trivial⟩)
  | callStatement _ call => exact call trivial
  | returnScalar _ value | returnRange _ value => exact .word (value trivial)
  | assignScalar _ value | assignRange _ value => exact .cons (by simp) (.mark (value trivial))
  | assignCell _ _ target value => exact (target trivial).append (.mark (value trivial))
  | assignSheet => exact .cons (by simp) (.mark (.cons (by simp) .nil))
  /- Definitions -/
  | scalarPlain | rangePlain | sheetPlain => exact .word (.cons (by simp) .nil)
  | scalarValue _ value | rangeValue _ value =>
      have same := value trivial
      rw [← List.append_nil (Nonterminal.integers _ _)] at same
      exact .word (.cons (by simp) (.mark same))
  -- The sign of the definition is in front of the width, if the contents are a size.
  | @sheetValue _ contents _ _ _ _ _ inside =>
      have numbered := inside trivial
      rw [Nonterminal.integers, Variable.integers, Option.toList_some, List.flatMap_singleton]
      refine .word (.cons (by simp) ⟨by simp [StartsPlain, mark], ?_⟩)
      exact (Token.integers_cons_congr (mark .equal ("", 0)) (by rfl) _).trans numbered.same
  | rows _ _ first others =>
      refine .mark (.concat (.append (.mark ?_) (others ⟨rfl, trivial⟩)) (by simp [mark]))
      exact first ⟨rfl, trivial⟩
  | size width height =>
      refine ⟨?_, ?_⟩
      · simp [Nonterminal.lead, StartsPlain, mark]
      · simp [Nonterminal.lead, Nonterminal.integers, SheetContents.integers, Token.integers,
          Token.integer?, mark, IntegerField.behind?, width, height]
  | laterRowOne _ only =>
      have alone := only trivial
      rw [← List.append_nil (Nonterminal.integers _ _)] at alone
      exact alone
  | laterRowCons _ _ first others => exact (first trivial).append (.mark (others ⟨rfl, trivial⟩))
  | scalarParameter | rangeParameter | sheetParameter =>
      exact .cons (by simp) (.mark (.word .nil))
  | parametersNone => exact .mark (.mark .nil)
  | @parametersSome _ _ _ items _ listed =>
      have none : (Nonterminal.separated .parameter).integers items = [] :=
        List.flatMap_eq_nil_iff.mpr fun _ _ => rfl
      have numbered := listed ⟨rfl, trivial⟩
      rw [none] at numbered
      exact .concat (.mark numbered) (by simp [mark])
  | returnsScalar | returnsRange => exact .word .nil
  | «variable» _ definition => exact definition trivial
  | function _ _ _ _ parameters returnType locals body =>
      change Numbered _ ([] ++ [] ++ Nonterminal.integers (.many .variableDefinition) _ ++
        Nonterminal.integers .block _)
      refine .concat (.append (.append (.append ?_ (.word (returnType trivial)))
        (.word (locals ⟨rfl, trivial⟩))) (body trivial)) (by simp [word])
      exact .word (.cons (by simp) (parameters trivial))
  | subroutine _ _ _ parameters locals body =>
      change Numbered _ ([] ++ Nonterminal.integers (.many .variableDefinition) _ ++
        Nonterminal.integers .block _)
      refine .concat (.append (.append ?_ (.word (locals ⟨rfl, trivial⟩))) (body trivial))
        (by simp [word])
      exact .word (.cons (by simp) (parameters trivial))
  | program _ _ definitions statements =>
      exact (definitions ⟨rfl, trivial⟩).append (statements trivial)

/-! ## Programs -/

section Programs

variable {program another : Program} {literal other : Token} {field : IntegerField}
  {value number : Int64}

theorem Derives.numbered (derivation : Derives .program tokens program) :
    Numbered tokens program.integers :=
  derivation.integers trivial

/-- In front of a whole number is the symbol of its place, and it is the one there. -/
theorem Derives.exists_field (derivation : Derives .program (front ++ literal :: back) program)
    (kind : literal.kind = .integer) :
    ∃ earlier sign field value, front = earlier ++ [sign] ∧ sign.kind = .symbol field.sign ∧
      program.integers[front.countP (·.kind = .integer)]? = some (field, value) := by
  have numbered := derivation.numbered
  obtain rfl | ⟨earlier, sign, rfl⟩ := List.eq_nil_or_concat front
  · exact absurd kind (numbered.plain literal rfl)
  rw [List.concat_eq_append] at numbered ⊢
  have found := Token.getElem?_integers kind earlier sign back
  rw [List.append_assoc, List.singleton_append] at numbered
  rw [numbered.same, List.getElem?_map, Option.map_eq_some_iff,
    Token.length_integers numbered.plain.of_append_cons] at found
  obtain ⟨⟨field, value⟩, seen, same⟩ := found
  have behind := (Prod.mk.inj same).1
  exact ⟨earlier, sign, field, value, rfl, IntegerField.behind?_eq_some_iff.mp behind.symm, seen⟩

/-- With another whole number in the place of one, a program has that one there. -/
theorem Derives.integers_set (derivation : Derives .program (front ++ literal :: back) program)
    (second : Derives .program (front ++ other :: back) another) (kind : literal.kind = .integer)
    (otherKind : other.kind = .integer)
    (seen : program.integers[front.countP (·.kind = .integer)]? = some (field, value))
    (fits : Literal.int64? other.text = some number) :
    another.integers =
      program.integers.set (front.countP (·.kind = .integer)) (field, number) := by
  obtain ⟨earlier, sign, place, held, rfl, mark, found⟩ := derivation.exists_field kind
  cases seen.symm.trans found
  have numbered := derivation.numbered
  have listed := second.numbered
  have same := Token.integers_set kind otherKind earlier sign back
  rw [List.append_assoc, List.singleton_append] at numbered listed
  have injective : Function.Injective (Prod.map some some) :=
    (Option.some_injective IntegerField).prodMap (Option.some_injective Int64)
  apply List.map_injective_iff.mpr injective
  rw [List.map_set, ← numbered.same, ← listed.same, same,
    Token.length_integers numbered.plain.of_append_cons, fits,
    IntegerField.behind?_eq_some_iff.mpr mark]
  rfl

end Programs

end SheetLang
