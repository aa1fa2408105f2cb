import SheetLang.Graph.Quoting

/-!
# Labels are read back

An escaped label has no line break and no quote that would close it, and what was escaped is
got back.  So the label in a line is read back whatever it is made of.
-/

namespace SheetLang.Graph

/-! ## Characters -/

/-- A character is a quote, a backslash or a line break, or it is written as it is. -/
theorem escapeChar_cases (character : Char) :
    character = '"' ∨ character = '\\' ∨ character = '\n' ∨
      (character ≠ '"' ∧ character ≠ '\\' ∧ escapeChar character = [character]) := by
  by_cases quote : character = '"'
  · exact .inl quote
  by_cases backslash : character = '\\'
  · exact .inr (.inl backslash)
  by_cases newline : character = '\n'
  · exact .inr (.inr (.inl newline))
  refine .inr (.inr (.inr ⟨quote, backslash, ?_⟩))
  unfold escapeChar
  split <;> first | contradiction | rfl

theorem newline_notMem_escapeChar (character : Char) : '\n' ∉ escapeChar character := by
  unfold escapeChar
  split
  · decide
  · decide
  · decide
  · next other => simpa using fun same => other same.symm

theorem closing?_cons {character : Char} (quote : character ≠ '"')
    (backslash : character ≠ '\\') (rest : List Char) :
    closing? (character :: rest) =
      (closing? rest).map fun (inside, behind) => (character :: inside, behind) := by
  rw [closing?]
  · exact quote
  · exact fun _ _ same _ => backslash same

theorem unescape_cons {character : Char} (backslash : character ≠ '\\') (rest : List Char) :
    unescape (character :: rest) = character :: unescape rest := by
  rw [unescape]
  · exact fun _ same _ => backslash same
  · exact fun _ _ same _ => backslash same

/-- Nothing that a character is written as closes a label. -/
theorem closing?_escapeChar_append (character : Char) (rest : List Char) :
    closing? (escapeChar character ++ rest) =
      (closing? rest).map fun (inside, behind) => (escapeChar character ++ inside, behind) := by
  rcases escapeChar_cases character with rfl | rfl | rfl | ⟨quote, backslash, plain⟩
  · rfl
  · rfl
  · rfl
  · rw [plain]
    exact closing?_cons quote backslash rest

theorem unescape_escapeChar_append (character : Char) (rest : List Char) :
    unescape (escapeChar character ++ rest) = character :: unescape rest := by
  rcases escapeChar_cases character with rfl | rfl | rfl | ⟨-, backslash, plain⟩
  · rfl
  · rfl
  · rfl
  · rw [plain]
    exact unescape_cons backslash rest

/-! ## Labels -/

theorem newline_notMem_escape (label : String) : '\n' ∉ (escape label).toList := by
  rw [escape, String.toList_ofList]
  intro member
  obtain ⟨character, -, inside⟩ := List.mem_flatMap.mp member
  exact newline_notMem_escapeChar character inside

theorem closing?_escape_append (label : String) (rest : List Char) :
    closing? ((escape label).toList ++ rest) =
      (closing? rest).map fun (inside, behind) => ((escape label).toList ++ inside, behind) := by
  rw [escape, String.toList_ofList]
  induction label.toList with
  | nil => simp
  | cons character characters induction =>
      rw [List.flatMap_cons, List.append_assoc, closing?_escapeChar_append, induction,
        Option.map_map]
      simp [Function.comp_def]

theorem closing?_escape (label : String) : closing? (escape label).toList = none := by
  have nothing := closing?_escape_append label []
  rwa [List.append_nil] at nothing

theorem closing?_escape_quote (label : String) (rest : List Char) :
    closing? ((escape label).toList ++ '"' :: rest) = some ((escape label).toList, rest) := by
  rw [closing?_escape_append]
  exact congrArg (fun inside => some (inside, rest)) (List.append_nil _)

/-- What was escaped is got back. -/
theorem unescape_escape (label : String) :
    unescape (escape label).toList = label.toList := by
  rw [escape, String.toList_ofList]
  induction label.toList with
  | nil => rfl
  | cons character characters induction =>
      rw [List.flatMap_cons, unescape_escapeChar_append, induction]

/-! ## Lines -/

variable {front : String}

/-- Behind anything without a quote, the first quote that is not escaped closes the label. -/
theorem quoted?_renderLabel (plain : '"' ∉ front.toList) (label : String) :
    quoted? (front ++ renderLabel (some label)) =
      some ((escape label).toList, " ];".toList) := by
  have whole : (front ++ renderLabel (some label)).toList =
      (front.toList ++ " [ label=".toList) ++
        '"' :: ((escape label).toList ++ '"' :: " ];".toList) := by
    simp [renderLabel, String.toList_append]
  have opening : ∀ character ∈ front.toList ++ " [ label=".toList, (character != '"') = true := by
    intro character member
    rw [bne_iff_ne]
    rintro rfl
    rcases List.mem_append.mp member with inside | behind
    · exact plain inside
    · revert behind
      decide
  rw [quoted?, whole, List.dropWhile_append_of_pos opening]
  exact closing?_escape_quote label _

theorem readLabel?_renderLabel (plain : '"' ∉ front.toList) (label : String) :
    readLabel? (front ++ renderLabel (some label)) = some label := by
  simp only [readLabel?, quoted?_renderLabel plain, Option.map_some, unescape_escape,
    String.ofList_toList]

theorem newline_notMem_renderLabel (plain : '\n' ∉ front.toList) (label : String) :
    '\n' ∉ (front ++ renderLabel (some label)).toList := by
  have inside := newline_notMem_escape label
  simp [renderLabel, String.toList_append, plain, inside]

theorem quotes_renderLabel (plain : '"' ∉ front.toList) (single : '\n' ∉ front.toList)
    (label : String) : Quotes (front ++ renderLabel (some label)) label :=
  ⟨newline_notMem_renderLabel single label, quoted?_renderLabel plain label,
    readLabel?_renderLabel plain label⟩

end SheetLang.Graph
