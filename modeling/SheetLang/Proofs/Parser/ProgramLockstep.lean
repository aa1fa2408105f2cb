import SheetLang.Proofs.Parser.ExpressionLockstep
import SheetLang.Proofs.Parser.ProgramSoundness

/-!
# Lockstep of the parsers of programs

Among the targets of assignments, too, a sheet is told from a cell by a second
token only.  As with arguments, a run that looks at it takes the sheet name.
-/

namespace SheetLang

open Grammar

namespace Parser

variable {stop halt : List Token} {size : Nat} {inner outer : Nested}

theorem lockstep_optionalInfo : Lockstep stop halt size optionalInfo optionalInfo := by
  unfold optionalInfo
  refine .peek fun next => ?_
  split
  · exact .bind (.token _) fun _ _ => .pure _ _
  · exact .pure _ _

theorem lockstep_print {keyword : Keyword} {argument other : Parser Argument}
    (arguments : Lockstep stop halt size argument other) :
    Lockstep stop halt size (print keyword argument) (print keyword other) := by
  unfold print
  refine .bind (.keyword _) fun _ _ => ?_
  refine .bind lockstep_optionalInfo fun _ _ => ?_
  exact .bind arguments fun _ _ => .pure _ _

theorem lockstep_assigned {value other : Parser α}
    (values : Lockstep stop halt size value other) :
    Lockstep stop halt size (assigned value) (assigned other) :=
  .bind (.symbol _) fun _ _ => values

section

variable (nested : inner.Lockstep stop halt size outer)
include nested

theorem lockstep_statement {block other : Parser (List Statement)}
    (blocks : Lockstep stop halt size block other) (shrinks : Shrinks (statement inner block)) :
    Lockstep stop halt (size + 1) (statement inner block) (statement outer other) := by
  have comparisons := lockstep_comparison nested
  have ranges := lockstep_range nested
  have scalars := comparisons.mono (Nat.le_succ size)
  refine ⟨shrinks, fun {tokens others} aligned short => ?_⟩
  unfold statement
  rw [peek_run, peek_run, ← aligned.head_eq]
  generalize head : tokens.head?.map Token.kind = kind
  split
  · refine (lockstep_print ?_).agree aligned short
    exact .bind (.token _) fun _ _ => .pure _ _
  · refine (lockstep_print ?_).agree aligned short
    exact .bind ranges fun _ _ => .pure _ _
  · refine (lockstep_print ?_).agree aligned short
    exact .bind comparisons fun _ _ => .pure _ _
  · refine Lockstep.agree ?_ aligned short
    refine .bindTaking (.keyword _) (takes_keyword _) fun _ _ => ?_
    refine .bind scalars fun _ _ => ?_
    refine .bind (.keyword _) fun _ _ => ?_
    refine .bind blocks fun _ _ => ?_
    refine .peek fun next => ?_
    split
    · refine .bind (.keyword _) fun _ _ => ?_
      refine .bind blocks fun _ _ => ?_
      exact .bind (.keyword _) fun _ _ => .pure _ _
    · exact .bind (.keyword _) fun _ _ => .pure _ _
  · refine Lockstep.agree ?_ aligned short
    refine .bindTaking (.keyword _) (takes_keyword _) fun _ _ => ?_
    refine .bind scalars fun _ _ => ?_
    refine .bind (.keyword _) fun _ _ => ?_
    refine .bind blocks fun _ _ => ?_
    exact .bind (.keyword _) fun _ _ => .pure _ _
  · refine Lockstep.agree ?_ aligned short
    refine .bindTaking (.keyword _) (takes_keyword _) fun _ _ => ?_
    have items := ranges.mono (Nat.le_succ size)
    refine .bind (.commaSeparated items items) fun _ _ => ?_
    refine .bind (.keyword _) fun _ _ => ?_
    refine .bind blocks fun _ _ => ?_
    exact .bind (.keyword _) fun _ _ => .pure _ _
  · refine Lockstep.agree ?_ aligned short
    refine .bind (.keyword _) fun _ _ => ?_
    refine .peek fun next => ?_
    split
    · exact .bind ranges fun _ _ => .pure _ _
    · exact .bind comparisons fun _ _ => .pure _ _
  · exact (Lockstep.bind (lockstep_call nested) fun _ _ => .pure _ _).agree aligned short
  · refine Lockstep.agree ?_ aligned short
    refine .bind (.token _) fun _ _ => ?_
    exact .bind (lockstep_assigned comparisons) fun _ _ => .pure _ _
  · refine Lockstep.agree ?_ aligned short
    refine .bind (.token _) fun _ _ => ?_
    exact .bind (lockstep_assigned ranges) fun _ _ => .pure _ _
  · obtain ⟨token, rest, rfl, sheet⟩ := eq_cons_of_head head
    have cells (target other : CellRef) := Lockstep.bind (lockstep_assigned comparisons)
      fun value result => .pure (.assignCell target value) (Statement.assignCell other result)
    have sources : Lockstep stop halt (size + 1) (text .sheetName) (text .sheetName) := .token _
    have sheets (target other : String) := Lockstep.bind (lockstep_assigned sources)
      fun source result => .pure (.assignSheet target source) (Statement.assignSheet other result)
    refine Agree.peekSecond aligned (fun second => ?_) fun second => ?_
    · refine Nat.lt_succ_of_le ?_
      split
      · exact Nat.le_trans (remaining_bind_le (fun _ => (cells _ .current).shrinks) _)
          (cellRef_takes sheet)
      · exact Nat.le_trans (remaining_bind_le (fun _ => (sheets _ "").shrinks) _)
          (text_takes sheet)
    · refine Lockstep.agree ?_ aligned short
      split
      · exact .bind lockstep_cellRef cells
      · exact .bind (.token _) sheets
  · refine Lockstep.agree ?_ aligned short
    refine .bind lockstep_cellRef fun _ _ => ?_
    exact .bind (lockstep_assigned comparisons) fun _ _ => .pure _ _

omit nested in
private theorem lockstep_block_of_small (innerSound : inner.Sound) (outerSound : outer.Sound)
    (bound limit : Nat)
    (few : size = 0 ∨ size + stop.length ≤ 1 ∨ size + halt.length ≤ 1) :
    Lockstep stop halt size (blockUpTo inner bound) (blockUpTo outer limit) :=
  .of_reads .block (reads_blockUpTo innerSound bound) (reads_blockUpTo outerSound limit) rfl few

theorem lockstep_blockUpTo (innerSound : inner.Sound) (outerSound : outer.Sound)
    (few bound limit : Nat) (within : few ≤ size + 1) (enough : few + stop.length ≤ bound + 1)
    (sufficient : few + halt.length ≤ limit + 1) :
    Lockstep stop halt few (blockUpTo inner bound) (blockUpTo outer limit) := by
  induction few generalizing bound limit with
  | zero => exact lockstep_block_of_small innerSound outerSound _ _ (.inl rfl)
  | succ few induction =>
      cases bound with
      | zero => exact lockstep_block_of_small innerSound outerSound _ _ (.inr (.inl (by omega)))
      | succ bound =>
          cases limit with
          | zero => exact lockstep_block_of_small innerSound outerSound _ _ (.inr (.inr (by omega)))
          | succ limit =>
              have blocks := induction bound limit (by omega) (by omega) (by omega)
              have reads := reads_statement innerSound (reads_blockUpTo innerSound bound)
              have statements := lockstep_statement (nested.mono (by omega)) blocks reads.shrinks
              have takes : Takes (statement inner (blockUpTo inner bound)) :=
                Reads.takes .statement reads rfl
              unfold blockUpTo
              refine .bind statements fun _ _ => ?_
              exact .bind (.many statements takes) fun _ _ => .pure _ _

theorem lockstep_block (innerSound : inner.Sound) (outerSound : outer.Sound) :
    Lockstep stop halt (size + 1) (block inner) (block outer) := by
  refine ⟨(reads_block innerSound).shrinks, fun {tokens others} aligned short => ?_⟩
  have within := aligned.length_le
  have lengths := aligned.length_eq
  refine (lockstep_blockUpTo nested innerSound outerSound (tokens.length + 1 - stop.length)
    tokens.length others.length ?_ ?_ ?_).agree aligned ?_
  · omega
  · omega
  · omega
  · omega

omit nested in
theorem lockstep_optionalValue {value other : Parser α}
    (values : Lockstep stop halt size value other) :
    Lockstep stop halt size (optionalValue value) (optionalValue other) := by
  unfold optionalValue
  refine .optionalSymbol fun equal => ?_
  split
  · exact .bind values fun _ _ => .pure _ _
  · exact .pure _ _

theorem lockstep_sheetContents (innerSound : inner.Sound) :
    Lockstep stop halt (size + 1) (sheetContents inner) (sheetContents outer) := by
  have cells := lockstep_sum nested (lockstep_operand nested)
  have firstCells := lockstep_sum nested (lockstep_atom nested)
  have laterRows := Lockstep.commaSeparated firstCells cells
  have takes : Takes (commaSeparated (sum inner (atom inner)) (sum inner (operand inner))) :=
    Reads.takes .laterRow (reads_laterRow innerSound) rfl
  unfold sheetContents rows
  refine .optionalSymbol fun opening => ?_
  split
  · refine .bind ?_ fun _ _ => ?_
    · refine .bind (.commaSeparated cells cells) fun _ _ => ?_
      exact .bind (.many laterRows takes) fun _ _ => .pure _ _
    · exact .bind (.symbol _) fun _ _ => .pure _ _
  · refine .bind .integer fun _ _ => ?_
    refine .bind (.symbol _) fun _ _ => ?_
    exact .bind .integer fun _ _ => .pure _ _

theorem lockstep_variableDefinition (innerSound : inner.Sound) :
    Lockstep stop halt (size + 1) (variableDefinition inner) (variableDefinition outer) := by
  unfold variableDefinition
  refine .peek fun next => ?_
  split
  · refine .bind (.keyword _) fun _ _ => ?_
    refine .bind (.token _) fun _ _ => ?_
    exact .bind (lockstep_optionalValue (lockstep_comparison nested)) fun _ _ => .pure _ _
  · refine .bind (.keyword _) fun _ _ => ?_
    refine .bind (.token _) fun _ _ => ?_
    exact .bind (lockstep_optionalValue (lockstep_range nested)) fun _ _ => .pure _ _
  · refine .bind (.keyword _) fun _ _ => ?_
    refine .bind (.token _) fun _ _ => ?_
    have contents := lockstep_sheetContents nested innerSound
    exact .bind (lockstep_optionalValue contents) fun _ _ => .pure _ _

omit nested in
theorem lockstep_parameter : Lockstep stop halt size parameter parameter := by
  unfold parameter
  refine .peek fun next => ?_
  split
  · refine .bind (.token _) fun _ _ => ?_
    refine .bind (.symbol _) fun _ _ => ?_
    exact .bind (.keyword _) fun _ _ => .pure _ _
  · refine .bind (.token _) fun _ _ => ?_
    refine .bind (.symbol _) fun _ _ => ?_
    exact .bind (.keyword _) fun _ _ => .pure _ _
  · refine .bind (.token _) fun _ _ => ?_
    refine .bind (.symbol _) fun _ _ => ?_
    exact .bind (.keyword _) fun _ _ => .pure _ _

omit nested in
theorem lockstep_parameters : Lockstep stop halt size parameters parameters := by
  unfold parameters
  refine .bind (.symbol _) fun _ _ => ?_
  refine .optionalSymbol fun closing => ?_
  split
  · exact .pure _ _
  · refine .bind (.commaSeparated lockstep_parameter lockstep_parameter) fun _ _ => ?_
    exact .bind (.symbol _) fun _ _ => .pure _ _

omit nested in
theorem lockstep_returnType : Lockstep stop halt size returnType returnType := by
  unfold returnType
  refine .peek fun next => ?_
  split
  · exact .bind (.keyword _) fun _ _ => .pure _ _
  · exact .bind (.keyword _) fun _ _ => .pure _ _

theorem lockstep_body (innerSound : inner.Sound) (outerSound : outer.Sound) :
    Lockstep stop halt (size + 1) (body inner) (body outer) := by
  have locals := lockstep_variableDefinition nested innerSound
  have takes : Takes (variableDefinition inner) :=
    Reads.takes .variableDefinition (reads_variableDefinition innerSound) rfl
  unfold body
  refine .bind (.keyword _) fun _ _ => ?_
  refine .bind (.many locals takes) fun _ _ => ?_
  refine .bind (lockstep_block nested innerSound outerSound) fun _ _ => ?_
  exact .bind (.keyword _) fun _ _ => .pure _ _

theorem lockstep_definition (innerSound : inner.Sound) (outerSound : outer.Sound) :
    Lockstep stop halt (size + 1) (definition inner) (definition outer) := by
  have bodies := lockstep_body nested innerSound outerSound
  unfold definition
  refine .peek fun next => ?_
  split
  · refine .bind (.keyword _) fun _ _ => ?_
    refine .bind (.token _) fun _ _ => ?_
    refine .bind lockstep_parameters fun _ _ => ?_
    refine .bind (.keyword _) fun _ _ => ?_
    refine .bind lockstep_returnType fun _ _ => ?_
    exact .bind bodies fun _ _ => .pure _ _
  · refine .bind (.keyword _) fun _ _ => ?_
    refine .bind (.token _) fun _ _ => ?_
    refine .bind lockstep_parameters fun _ _ => ?_
    exact .bind bodies fun _ _ => .pure _ _
  · exact .bind (lockstep_variableDefinition nested innerSound) fun _ _ => .pure _ _

theorem lockstep_program (innerSound : inner.Sound) (outerSound : outer.Sound) :
    Lockstep stop halt (size + 1) (program inner) (program outer) := by
  have definitions := lockstep_definition nested innerSound outerSound
  have takes : Takes (definition inner) :=
    Reads.takes .definition (reads_definition innerSound) rfl
  unfold program
  refine .bind (.many definitions takes) fun _ _ => ?_
  exact .bind (lockstep_block nested innerSound outerSound) fun _ _ => .pure _ _

end

theorem agree_program (aligned : Aligned stop halt tokens others) :
    Agree stop halt (program (Nested.upTo tokens.length) tokens)
      (program (Nested.upTo others.length) others) := by
  have within := aligned.length_le
  have lengths := aligned.length_eq
  have nested : (Nested.upTo tokens.length).Lockstep stop halt (tokens.length + 1 - stop.length)
      (Nested.upTo others.length) :=
    Nested.lockstep_upTo _ _ _ (by omega) (by omega)
  exact (lockstep_program nested (Nested.sound_upTo _) (Nested.sound_upTo _)).agree aligned
    (by omega)

end Parser

end SheetLang
