import SheetLang.Program.WellFormed
import SheetLang.Proofs.Lexeme.Legibility

/-!
# Names and their tokens

The names and texts of well-formed programs are those of legible tokens.
-/

namespace SheetLang

open Shape

variable {text : List Char} {kind : Token.Kind}

/-! ## Kinds that nothing wins against -/

theorem legible_iff_admits (unbeaten : ∀ other : Token.Kind, other.beats kind = false)
    (plain : kind ≠ .info) : kind.Legible text ↔ kind.admits text = true := by
  constructor
  · intro legible
    exact legible.1
  · intro admits
    refine ⟨admits, ?_, fun info => absurd info plain⟩
    intro other beats
    rw [unbeaten other] at beats
    cases beats

theorem legible_keyword (word : Keyword) :
    (Token.Kind.keyword word).Legible word.text.toList := by
  rw [legible_iff_admits (fun other => by cases other <;> rfl) (by simp)]
  exact beq_self_eq_true _

theorem legible_symbol (mark : Symbol) : (Token.Kind.symbol mark).Legible mark.text.toList := by
  rw [legible_iff_admits (fun other => by cases other <;> rfl) (by simp)]
  exact beq_self_eq_true _

theorem legible_rangeName_iff {name : String} :
    Token.Kind.rangeName.Legible name.toList ↔ IsRangeName name :=
  legible_iff_admits (fun other => by cases other <;> rfl) (by decide)

theorem legible_coordinate_iff {name : String} :
    Token.Kind.coordinate.Legible name.toList ↔ IsCoordinate name :=
  legible_iff_admits (fun other => by cases other <;> rfl) (by decide)

theorem legible_integer_iff : Token.Kind.integer.Legible text ↔ Shape.integer text = true :=
  legible_iff_admits (fun other => by cases other <;> rfl) (by decide)

theorem legible_decimal_iff : Token.Kind.decimal.Legible text ↔ Shape.decimal text = true :=
  legible_iff_admits (fun other => by cases other <;> rfl) (by decide)

/-! ## Scalars, sheets and functions -/

theorem legible_ident_iff {name : String} :
    Token.Kind.ident.Legible name.toList ↔ IsScalarName name := by
  constructor
  · intro legible
    obtain ⟨shape, unbeaten, -⟩ := legible
    refine ⟨shape, fun word same => ?_⟩
    have refused := unbeaten (.keyword word) rfl
    rw [← same] at refused
    simp [Token.Kind.admits] at refused
  · intro named
    obtain ⟨shape, unreserved⟩ := named
    refine ⟨shape, ?_, fun info => by cases info⟩
    intro other beats
    cases other with
    | keyword word =>
        have different : name.toList ≠ word.text.toList := by
          intro same
          exact unreserved word (String.toList_injective same.symm)
        simpa [Token.Kind.admits] using different
    | _ => cases beats

theorem not_coordinate_of_sheetName (shape : Shape.sheetName text = true) :
    Shape.coordinate text = false := by
  apply Bool.eq_false_iff.mpr
  intro coordinate
  obtain ⟨capitals, digits, rfl, -, -, numeric, -⟩ := coordinate_iff.mp coordinate
  obtain ⟨digit, more, rfl, first⟩ := head_of_oneOrMore numeric
  have upper := (oneOrMore_iff.mp shape).2 digit (by simp)
  rw [not_isUpper_of_isDigit first] at upper
  cases upper

theorem legible_sheetName_iff {name : String} :
    Token.Kind.sheetName.Legible name.toList ↔ IsSheetName name := by
  constructor
  · intro legible
    exact legible.1
  · intro shape
    refine ⟨shape, ?_, fun info => by cases info⟩
    intro other beats
    cases other with
    | coordinate => exact not_coordinate_of_sheetName shape
    | _ => cases beats

theorem not_isUpper_of_isFuncChar {character : Char} (letter : isFuncChar character = true) :
    character.isUpper = false := by
  simp only [isFuncChar, Bool.or_eq_true] at letter
  obtain (lower | digit) | underscore := letter
  · rw [isLower_iff] at lower
    rw [← Bool.not_eq_true, isUpper_iff]
    omega
  · exact not_isUpper_of_isDigit digit
  · rw [beq_iff_eq.mp underscore]
    rfl

section FunctionName

variable {capital : Char} {rest : List Char} (upper : capital.isUpper = true)
  (letters : ∀ character ∈ rest, isFuncChar character = true)

include upper letters

theorem sheetName_cons_iff : Shape.sheetName (capital :: rest) = true ↔ rest = [] := by
  constructor
  · intro shape
    cases rest with
    | nil => rfl
    | cons next more =>
        have second := (oneOrMore_iff.mp shape).2 next (by simp)
        rw [not_isUpper_of_isFuncChar (letters next List.mem_cons_self)] at second
        cases second
  · intro empty
    subst empty
    simp [Shape.sheetName, oneOrMore, upper]

/-- Behind its first capital, a coordinate with the letters of a function name has
digits only. -/
theorem coordinate_cons_iff :
    Shape.coordinate (capital :: rest) = true ↔
      oneOrMore Char.isDigit rest = true ∧ rest.length ≤ 3 := by
  rw [coordinate_iff]
  constructor
  · intro found
    obtain ⟨capitals, digits, whole, capitalised, -, numeric, short⟩ := found
    obtain ⟨first, more, rfl, -⟩ := head_of_oneOrMore capitalised
    injection whole with _ whole
    cases more with
    | nil =>
        rw [whole]
        exact ⟨numeric, short⟩
    | cons second more =>
        have letter := letters second (by simp [whole])
        have capital := (oneOrMore_iff.mp capitalised).2 second (by simp)
        rw [not_isUpper_of_isFuncChar letter] at capital
        cases capital
  · intro found
    refine ⟨[capital], rest, rfl, ?_, by simp, found⟩
    simp [oneOrMore, upper]

end FunctionName

theorem legible_funcName_iff {name : String} :
    Token.Kind.funcName.Legible name.toList ↔ IsFunctionName name := by
  constructor
  · intro legible
    obtain ⟨shape, unbeaten, -⟩ := legible
    have noSheet : Shape.sheetName name.toList = false := unbeaten .sheetName rfl
    have noCoordinate : Shape.coordinate name.toList = false := unbeaten .coordinate rfl
    generalize spelled : name.toList = text at shape noSheet noCoordinate
    cases text with
    | nil => cases shape
    | cons capital rest =>
        obtain ⟨upper, inside⟩ := Bool.and_eq_true_iff.mp shape
        have letters := List.all_eq_true.mp inside
        refine ⟨capital, rest, spelled, upper, oneOrMore_iff.mpr ⟨?_, letters⟩, ?_⟩
        · rwa [← Bool.not_eq_true, sheetName_cons_iff upper letters] at noSheet
        · rwa [← Bool.not_eq_true, coordinate_cons_iff upper letters] at noCoordinate
  · intro named
    obtain ⟨capital, rest, spelled, upper, inside, numbered⟩ := named
    obtain ⟨nonempty, letters⟩ := oneOrMore_iff.mp inside
    rw [spelled]
    refine ⟨?_, ?_, fun info => by cases info⟩
    · exact Bool.and_eq_true_iff.mpr ⟨upper, List.all_eq_true.mpr letters⟩
    · intro other beats
      apply Bool.eq_false_iff.mpr
      cases other with
      | coordinate => exact fun shape => numbered ((coordinate_cons_iff upper letters).mp shape)
      | sheetName => exact fun shape => nonempty ((sheetName_cons_iff upper letters).mp shape)
      | _ => cases beats

/-! ## Info strings -/

theorem isInfoChar_iff {body : List Char} :
    (∀ character ∈ body, isInfoChar character = true) ↔ '!' ∉ body ∧ '\n' ∉ body := by
  constructor
  · intro inside
    constructor
    · intro member
      cases inside '!' member
    · intro member
      cases inside '\n' member
  · intro outside character member
    have mark : character ≠ '!' := fun same => outside.1 (same ▸ member)
    have newline : character ≠ '\n' := fun same => outside.2 (same ▸ member)
    simp [isInfoChar, mark, newline]

theorem legible_info_iff {body : List Char} :
    Token.Kind.info.Legible ('!' :: body ++ ['!']) ↔ IsInfo (String.ofList body) := by
  rw [IsInfo, String.toList_ofList]
  constructor
  · intro legible
    have shape : Shape.info ('!' :: body ++ ['!']) = true := legible.1
    obtain ⟨other, same, inside⟩ := info_iff.mp shape
    simp only [List.cons_append, List.cons.injEq, List.append_cancel_right_eq, true_and] at same
    subst same
    obtain ⟨mark, newline⟩ := isInfoChar_iff.mp inside
    refine ⟨mark, newline, fun next => ?_⟩
    obtain ⟨more, rfl⟩ := List.head?_eq_some_iff.mp next
    exact legible.2.2 rfl ⟨more ++ ['!'], rfl⟩
  · intro found
    obtain ⟨mark, newline, plain⟩ := found
    have shape : Shape.info ('!' :: body ++ ['!']) = true :=
      info_iff.mpr ⟨body, rfl, isInfoChar_iff.mpr ⟨mark, newline⟩⟩
    refine ⟨shape, fun other beats => (by cases other <;> cases beats), fun _ unequal => ?_⟩
    obtain ⟨behind, whole⟩ := unequal
    cases body with
    | nil => cases whole
    | cons first body =>
        cases whole
        exact plain rfl

/-- What stands between the marks of an info string. -/
theorem isInfo_of_legible (legible : Token.Kind.info.Legible text) :
    IsInfo (String.ofList (text.drop 1).dropLast) := by
  have shape : Shape.info text = true := legible.1
  obtain ⟨body, rfl, -⟩ := info_iff.mp shape
  have between : (('!' :: body ++ ['!']).drop 1).dropLast = body := by simp
  rw [between]
  exact legible_info_iff.mp legible

end SheetLang
