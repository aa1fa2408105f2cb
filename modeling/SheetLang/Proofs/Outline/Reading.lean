import Mathlib.Data.List.Infix
import SheetLang.Outline.Schema

/-!
# Outlines read back from their texts

Nothing is escaped in the text of an outline.  It can be read back all the same where the
schema is obeyed and the values keep to themselves: a node ends at a delimiter, and none of
its values has one, but for info strings, which end where the target of the statement begins.
-/

namespace SheetLang

/-! ## Where texts end -/

/-- A list ends where the first item stands that is not accepted. -/
theorem append_inj_of_boundary {α : Type} {front start back rest : List α} (accept : α → Bool)
    (inside : ∀ item ∈ front, accept item = true)
    (otherInside : ∀ item ∈ start, accept item = true)
    (stops : ∀ item ∈ back.head?, accept item = false)
    (otherStops : ∀ item ∈ rest.head?, accept item = false)
    (same : front ++ back = start ++ rest) : front = start ∧ back = rest := by
  have nothing {behind : List α} (stops : ∀ item ∈ behind.head?, accept item = false) :
      behind.takeWhile accept = [] := by
    cases behind with
    | nil => rfl
    | cons item behind => simp [stops item rfl]
  have fronts := congrArg (List.takeWhile accept) same
  rw [List.takeWhile_append_of_pos inside, List.takeWhile_append_of_pos otherInside,
    nothing stops, nothing otherStops, List.append_nil, List.append_nil] at fronts
  exact List.append_inj same (congrArg List.length fronts)

section

variable {front start back rest : List Char}

/-- What stands behind an info string. -/
def targetMark : List Char := ", target=".toList

theorem eq_nil_of_overlap {middle : List Char} (absent : ¬targetMark <:+: front ++ middle)
    (marked : targetMark <+: middle ++ rest) (otherMarked : targetMark <+: rest) :
    middle = [] := by
  obtain ⟨more, split⟩ := marked
  obtain ⟨later, whole⟩ := otherMarked
  cases middle with
  | nil => rfl
  | cons first middle =>
      rcases List.append_eq_append_iff.mp split with ⟨behind, longer, -⟩ | ⟨behind, mark, start⟩
      · exact absurd ⟨front, behind, by rw [longer, List.append_assoc]⟩ absent
      · cases behind with
        | nil =>
            refine absurd ⟨front, [], ?_⟩ absent
            rw [mark, List.append_nil, List.append_nil]
        | cons comma behind =>
            -- The second mark would begin within the first one.
            have begins : comma = ',' := by
              rw [← whole] at start
              exact (List.cons.inj start).1.symm
            have outside : ',' ∉ targetMark.tail := by decide
            rw [mark, begins] at outside
            exact absurd (by simp) outside

/-- A text ends at the mark behind it if the mark is nowhere within it. -/
theorem append_inj_of_marks (absent : ¬targetMark <:+: front)
    (otherAbsent : ¬targetMark <:+: start) (marked : targetMark <+: back)
    (otherMarked : targetMark <+: rest) (same : front ++ back = start ++ rest) :
    front = start ∧ back = rest := by
  rcases List.append_eq_append_iff.mp same with ⟨middle, rfl, rfl⟩ | ⟨middle, rfl, rfl⟩
  · obtain rfl := eq_nil_of_overlap otherAbsent marked otherMarked
    simp
  · obtain rfl := eq_nil_of_overlap absent otherMarked marked
    simp

end

/-! ## Nodes that can be read back -/

/-- What nodes and their relations stand in or between. -/
def isDelimiter (character : Char) : Bool :=
  ['(', ')', '[', ']', ','].contains character

/-- The value of the node can be told from what stands behind it. -/
def Outline.Plain (node : Outline) : Prop :=
  ∀ value ∈ node.value?,
    (node.kind = .infoString → ¬targetMark <:+: value.toList) ∧
      (node.kind ≠ .infoString → ∀ character ∈ value.toList, isDelimiter character = false)

/-- Every node obeys the schema and has a value that can be told. -/
def Outline.Readable (outline : Outline) : Prop :=
  ∀ node ∈ outline.preorder, node.Conforms ∧ node.Plain

def Relation.Readable (relation : Relation) : Prop :=
  ∀ node ∈ relation.preorder, node.Conforms ∧ node.Plain

/-- An info string is followed by the target of the statement. -/
def Relation.Followed : Relation → List Relation → Prop
  | .child _ node, others => node.kind = .infoString →
    ∃ target more, others = target :: more ∧ target.name = "target"
  | .children _ nodes, _ => ∀ node ∈ nodes, node.kind ≠ .infoString

/-- Relations that can be read back one after the other. -/
def Relation.Listed : List Relation → Prop
  | [] => True
  | relation :: others =>
    '=' ∉ relation.name.toList ∧ relation.Readable ∧ relation.Followed others ∧ Listed others

/-- The same of the slots of a form. -/
def Slot.orderly : List Slot → Bool
  | [] => true
  | .one name kinds :: others =>
    !name.toList.contains '=' &&
      (!kinds.contains .infoString || others.head?.map Slot.name == some "target") &&
      orderly others
  | .any name kinds :: others | .atLeastOne name kinds :: others =>
    !name.toList.contains '=' && !kinds.contains .infoString && orderly others

theorem Outline.Kind.orderly_of_mem_forms {kind : Outline.Kind} {form : Form}
    (member : form ∈ kind.forms) : Slot.orderly form.slots = true := by
  revert form
  cases kind <;> decide

theorem Relation.listed_of_fits {slots : List Slot} {relations : List Relation}
    (fits : List.Forall₂ Slot.Fits slots relations) (orderly : Slot.orderly slots = true)
    (readable : ∀ relation ∈ relations, relation.Readable) : Relation.Listed relations := by
  induction fits with
  | nil => trivial
  | @cons slot relation slots relations first later induction =>
      obtain ⟨own, below⟩ := List.forall_mem_cons.mp readable
      have named := first.name_eq
      cases slot with
      | one name kinds =>
          simp only [Slot.orderly, Bool.and_eq_true, Bool.or_eq_true] at orderly
          obtain ⟨⟨plain, target⟩, rest⟩ := orderly
          cases relation with
          | child label node =>
              refine ⟨?_, own, fun info => ?_, induction rest below⟩
              · rw [named]
                simpa [Slot.name] using plain
              · have listed := first.2
                rw [info] at listed
                have next : slots.head?.map Slot.name = some "target" := by
                  simpa [listed] using target
                cases later with
                | nil => cases next
                | @cons slot relation slots relations second others =>
                    refine ⟨relation, relations, rfl, ?_⟩
                    rw [second.name_eq]
                    simpa using next
          | children => exact first.elim
      | any name kinds | atLeastOne name kinds =>
          simp only [Slot.orderly, Bool.and_eq_true] at orderly
          obtain ⟨⟨plain, none⟩, rest⟩ := orderly
          cases relation with
          | child => exact first.elim
          | children label nodes =>
              refine ⟨?_, own, fun node member info => ?_, induction rest below⟩
              · rw [named]
                simpa [Slot.name] using plain
              · have kinds : ∀ node ∈ nodes, node.kind ∈ kinds := by
                  first | exact first.2 | exact first.2.2
                have listed := kinds node member
                rw [info] at listed
                simp [listed] at none

/-! ## Texts -/

/-- A value behind its colon. -/
def valueText : Option String → List Char
  | none => []
  | some value => ':' :: value.toList

/-- Relations in parentheses, if there are any. -/
def Relation.textAll : List Relation → List Char
  | [] => []
  | relation :: others =>
    '(' :: (relation.render.toList ++ ((Relation.renderRest others).toList ++ [')']))

def Outline.textAll : List Outline → List Char
  | [] => ['[', ']']
  | first :: others =>
    '[' :: (first.render.toList ++ ((Outline.renderRest others).toList ++ [']']))

/-- What stands behind the name of a relation. -/
def Relation.bodyText : Relation → List Char
  | .child _ node => node.render.toList
  | .children _ nodes => Outline.textAll nodes

theorem Outline.toList_render (kind : Outline.Kind) (value : Option String)
    (relations : List Relation) :
    (node kind value relations).render.toList =
      kind.name.toList ++ (valueText value ++ Relation.textAll relations) := by
  cases relations <;> cases value <;>
    simp [Outline.render, Outline.label, Relation.textAll, valueText, String.toList_append]

theorem Relation.toList_render (relation : Relation) :
    relation.render.toList = relation.name.toList ++ '=' :: relation.bodyText := by
  rcases relation with ⟨name, node⟩ | ⟨name, _ | ⟨node, others⟩⟩ <;>
    simp [Relation.render, Relation.name, Relation.bodyText, Outline.textAll,
      String.toList_append]

@[simp] theorem Relation.toList_renderRest_nil : (Relation.renderRest []).toList = [] := rfl

@[simp] theorem Relation.toList_renderRest_cons (relation : Relation) (others : List Relation) :
    (Relation.renderRest (relation :: others)).toList =
      ',' :: ' ' :: (relation.render.toList ++ (Relation.renderRest others).toList) := by
  simp [Relation.renderRest, String.toList_append]

@[simp] theorem Outline.toList_renderRest_nil : (Outline.renderRest []).toList = [] := rfl

@[simp] theorem Outline.toList_renderRest_cons (outline : Outline) (others : List Outline) :
    (Outline.renderRest (outline :: others)).toList =
      ',' :: ' ' :: (outline.render.toList ++ (Outline.renderRest others).toList) := by
  simp [Outline.renderRest, String.toList_append]

theorem Outline.Kind.exists_head_name (kind : Outline.Kind) :
    ∃ head rest, kind.name.toList = head :: rest ∧ head.isAlpha = true := by
  cases kind <;> exact ⟨_, _, rfl, rfl⟩

theorem Outline.Kind.isAlpha_of_mem_name {kind : Outline.Kind} {character : Char}
    (member : character ∈ kind.name.toList) : character.isAlpha = true := by
  have letters : kind.name.toList.all Char.isAlpha = true := by
    cases kind <;> decide
  exact List.all_eq_true.mp letters character member

theorem Outline.Kind.name_injective : Function.Injective Outline.Kind.name := by
  intro left right same
  have found : Outline.Kind.ofName? right.name = some left :=
    Outline.Kind.ofName?_eq_some_iff.mpr same
  exact (Option.some.inj (right.ofName?_name.symm.trans found)).symm

theorem Outline.render_append_ne_cons {outline : Outline} {mark : Char} {rest later : List Char}
    (other : mark.isAlpha = false) : outline.render.toList ++ rest ≠ mark :: later := by
  obtain ⟨kind, value, relations⟩ := outline
  obtain ⟨head, behind, name, letter⟩ := kind.exists_head_name
  intro same
  rw [Outline.toList_render, name, List.cons_append, List.cons_append, List.cons.injEq] at same
  rw [same.1, other] at letter
  cases letter

theorem Outline.exists_textAll (nodes : List Outline) :
    ∃ rest, Outline.textAll nodes = '[' :: rest := by
  cases nodes <;> exact ⟨_, rfl⟩

/-! ## NodeEnds -/

/-- Nothing stands here, or what stands behind a node. -/
def NodeEnds (rest : List Char) : Prop :=
  ∀ character ∈ rest.head?, character = ',' ∨ character = ')' ∨ character = ']'

/-- The end of the node can be told from what stands here. -/
def Outline.StandsBefore (node : Outline) (rest : List Char) : Prop :=
  (node.kind = .infoString → targetMark <+: rest) ∧ (node.kind ≠ .infoString → NodeEnds rest)

theorem nodeEnds_of_mark {rest : List Char} (marked : targetMark <+: rest) : NodeEnds rest := by
  obtain ⟨later, rfl⟩ := marked
  intro character first
  cases first
  exact .inl rfl

theorem Outline.StandsBefore.ends {node : Outline} {rest : List Char}
    (before : node.StandsBefore rest) : NodeEnds rest := by
  by_cases info : node.kind = .infoString
  · exact nodeEnds_of_mark (before.1 info)
  · exact before.2 info

def Relation.StandsBefore : Relation → List Char → Prop
  | .child _ node, rest => node.StandsBefore rest
  | .children _ nodes, _ => ∀ node ∈ nodes, node.kind ≠ .infoString

/-- The end of a relation can be told from the relations that follow. -/
theorem Relation.Followed.standsBefore {relation : Relation} {others : List Relation}
    (followed : relation.Followed others) (rest : List Char) :
    relation.StandsBefore ((Relation.renderRest others).toList ++ ')' :: rest) := by
  cases relation with
  | children => exact followed
  | child name node =>
  refine ⟨fun info => ?_, fun _ => ?_⟩
  · obtain ⟨target, more, rfl, named⟩ := followed info
    have mark : targetMark = ',' :: ' ' :: ("target".toList ++ ['=']) := by decide
    rw [Relation.toList_renderRest_cons, Relation.toList_render, named, mark]
    refine ⟨target.bodyText ++ ((Relation.renderRest more).toList ++ ')' :: rest), ?_⟩
    simp only [List.cons_append, List.append_assoc, List.nil_append]
  · intro character first
    cases others with
    | nil =>
        cases first
        exact .inr (.inl rfl)
    | cons =>
        rw [Relation.toList_renderRest_cons] at first
        cases first
        exact .inl rfl

/-- A member of a list is followed by a comma or a bracket. -/
theorem Outline.standsBefore_renderRest {node : Outline} (other : node.kind ≠ .infoString)
    (others : List Outline) (rest : List Char) :
    node.StandsBefore ((Outline.renderRest others).toList ++ ']' :: rest) := by
  refine ⟨fun info => absurd info other, fun _ character first => ?_⟩
  cases others with
  | nil =>
      cases first
      exact .inr (.inr rfl)
  | cons =>
      rw [Outline.toList_renderRest_cons] at first
      cases first
      exact .inl rfl

/-- Where the value of a node ends, its relations and what stands behind it begin. -/
theorem boundary_textAll (relations : List Relation) {rest : List Char} (ends : NodeEnds rest) :
    ∀ character ∈ (Relation.textAll relations ++ rest).head?, isDelimiter character = true := by
  intro character first
  cases relations with
  | nil => obtain rfl | rfl | rfl := ends character first <;> rfl
  | cons =>
      cases first
      rfl

/-- The name of a kind ends where a value, relations or what stands behind a node begins. -/
theorem boundary_valueText {value : Option String} {relations : List Relation}
    {rest : List Char} (ends : NodeEnds rest) :
    ∀ character ∈ (valueText value ++ (Relation.textAll relations ++ rest)).head?,
      character.isAlpha = false := by
  intro character first
  cases value with
  | some =>
      cases first
      rfl
  | none =>
      have delimiter := boundary_textAll relations ends character first
      have letterless : ['(', ')', '[', ']', ','].all (fun mark => !mark.isAlpha) = true := by
        decide
      simpa using List.all_eq_true.mp letterless character (List.contains_iff_mem.mp delimiter)

/-- Values of nodes of one kind are told by their texts. -/
theorem valueText_append_inj {kind : Outline.Kind} {value other : Option String}
    {relations others : List Relation} {rest later : List Char}
    (plain : (Outline.node kind value relations).Plain)
    (otherPlain : (Outline.node kind other others).Plain)
    (before : (Outline.node kind value relations).StandsBefore rest)
    (otherBefore : (Outline.node kind other others).StandsBefore later)
    (bare : kind = .infoString → relations = [] ∧ others = [])
    (same : valueText value ++ (Relation.textAll relations ++ rest) =
      valueText other ++ (Relation.textAll others ++ later)) :
    value = other ∧ Relation.textAll relations ++ rest = Relation.textAll others ++ later := by
  have stops := boundary_textAll relations before.ends
  have otherStops := boundary_textAll others otherBefore.ends
  cases value with
  | none =>
      cases other with
      | none => exact ⟨rfl, same⟩
      | some text =>
          rw [valueText, List.nil_append] at same
          rw [same] at stops
          cases stops ':' rfl
  | some text =>
      cases other with
      | none =>
          rw [valueText.eq_1, List.nil_append] at same
          rw [← same] at otherStops
          cases otherStops ':' rfl
      | some second =>
          have tails := (List.cons.inj same).2
          have own := plain text rfl
          have others := otherPlain second rfl
          by_cases info : kind = .infoString
          · obtain ⟨rfl, rfl⟩ := bare info
            obtain ⟨values, rests⟩ := append_inj_of_marks (own.1 info) (others.1 info)
              (before.1 info) (otherBefore.1 info) tails
            exact ⟨congrArg some (String.toList_injective values), rests⟩
          · obtain ⟨values, rests⟩ :=
              append_inj_of_boundary (fun character => !isDelimiter character)
                (by simpa using own.2 info) (by simpa using others.2 info)
                (by simpa using stops) (by simpa using otherStops) tails
            exact ⟨congrArg some (String.toList_injective values), rests⟩

theorem Outline.readable_node {kind : Outline.Kind} {value : Option String}
    {relations : List Relation} (readable : (node kind value relations).Readable) :
    (node kind value relations).Plain ∧ Relation.Listed relations ∧
      (kind = .infoString → relations = []) := by
  obtain ⟨⟨⟨form, member, fits⟩, plain⟩, below⟩ := Outline.forall_mem_preorder_node.mp readable
  have orderly := Outline.Kind.orderly_of_mem_forms member
  refine ⟨plain, Relation.listed_of_fits fits.relations orderly below, fun info => ?_⟩
  have listed := fits.relations
  rw [Outline.kind, info] at member
  obtain rfl := List.mem_singleton.mp member
  cases listed
  rfl

/-! ## Reading back -/

/-- Relations in parentheses are told by the relations themselves. -/
theorem Relation.renderRest_append_eq {left right : List Relation} {rest later : List Char}
    (same : Relation.textAll left ++ rest = Relation.textAll right ++ later)
    (ends : NodeEnds rest) (otherEnds : NodeEnds later) :
    (Relation.renderRest left).toList ++ ')' :: rest =
      (Relation.renderRest right).toList ++ ')' :: later := by
  have closed {behind : List Char} : ¬NodeEnds ('(' :: behind) := by
    intro ends
    obtain impossible | impossible | impossible := ends '(' rfl <;> cases impossible
  cases left with
  | nil =>
      cases right with
      | nil => exact congrArg (List.cons ')') same
      | cons =>
          rw [Relation.textAll, List.nil_append] at same
          rw [same] at ends
          exact absurd ends closed
  | cons =>
      cases right with
      | nil =>
          rw [Relation.textAll.eq_1, List.nil_append] at same
          rw [← same] at otherEnds
          exact absurd otherEnds closed
      | cons => simpa [Relation.textAll] using same

theorem Outline.renderRest_append_eq {left right : List Outline} {rest later : List Char}
    (same : Outline.textAll left ++ rest = Outline.textAll right ++ later) :
    (Outline.renderRest left).toList ++ ']' :: rest =
      (Outline.renderRest right).toList ++ ']' :: later := by
  cases left with
  | nil =>
      cases right with
      | nil => simpa [Outline.textAll] using same
      | cons =>
          simp only [Outline.textAll, List.cons_append, List.append_assoc, List.nil_append,
            List.cons.injEq, true_and] at same
          exact absurd same.symm (Outline.render_append_ne_cons rfl)
  | cons =>
      cases right with
      | nil =>
          simp only [Outline.textAll, List.cons_append, List.append_assoc, List.nil_append,
            List.cons.injEq, true_and] at same
          exact absurd same (Outline.render_append_ne_cons rfl)
      | cons => simpa [Outline.textAll] using same

mutual

/-- An outline and what stands behind it are told by their text. -/
theorem Outline.render_append_inj {left right : Outline} {rest later : List Char}
    (same : left.render.toList ++ rest = right.render.toList ++ later)
    (readable : left.Readable) (otherReadable : right.Readable)
    (before : left.StandsBefore rest) (otherBefore : right.StandsBefore later) :
    left = right ∧ rest = later := by
  obtain ⟨kind, value, relations⟩ := left
  obtain ⟨otherKind, other, others⟩ := right
  obtain ⟨plain, listed, info⟩ := Outline.readable_node readable
  obtain ⟨otherPlain, otherListed, otherInfo⟩ := Outline.readable_node otherReadable
  rw [Outline.toList_render, Outline.toList_render, List.append_assoc, List.append_assoc,
    List.append_assoc, List.append_assoc] at same
  obtain ⟨names, values⟩ := append_inj_of_boundary Char.isAlpha
    (fun _ => Outline.Kind.isAlpha_of_mem_name) (fun _ => Outline.Kind.isAlpha_of_mem_name)
    (boundary_valueText before.ends) (boundary_valueText otherBefore.ends) same
  obtain rfl := Outline.Kind.name_injective (String.toList_injective names)
  obtain ⟨rfl, behind⟩ := valueText_append_inj plain otherPlain before otherBefore
    (fun kindInfo => ⟨info kindInfo, otherInfo kindInfo⟩) values
  obtain ⟨rfl, rfl⟩ := Relation.renderRest_append_inj
    (Relation.renderRest_append_eq behind before.ends otherBefore.ends) listed otherListed
  exact ⟨rfl, rfl⟩
termination_by structural left

/-- Relations behind others are told by their text. -/
theorem Relation.renderRest_append_inj {left right : List Relation} {rest later : List Char}
    (same : (Relation.renderRest left).toList ++ ')' :: rest =
      (Relation.renderRest right).toList ++ ')' :: later)
    (listed : Relation.Listed left) (otherListed : Relation.Listed right) :
    left = right ∧ rest = later := by
  cases left with
  | nil =>
      cases right with
      | nil => exact ⟨rfl, (List.cons.inj same).2⟩
      | cons =>
          rw [Relation.toList_renderRest_cons] at same
          cases (List.cons.inj same).1
  | cons relation relations =>
      cases right with
      | nil =>
          rw [Relation.toList_renderRest_cons] at same
          cases (List.cons.inj same).1
      | cons other others =>
          simp only [Relation.toList_renderRest_cons, List.cons_append, List.append_assoc,
            List.cons.injEq, true_and] at same
          obtain ⟨plain, readable, followed, more⟩ := listed
          obtain ⟨otherPlain, otherReadable, otherFollowed, otherMore⟩ := otherListed
          obtain ⟨rfl, behind⟩ := Relation.render_append_inj same plain otherPlain readable
            otherReadable (followed.standsBefore _) (otherFollowed.standsBefore _)
          obtain ⟨rfl, rfl⟩ := Relation.renderRest_append_inj behind more otherMore
          exact ⟨rfl, rfl⟩
termination_by structural left

/-- A relation is told by its text, single child or list. -/
theorem Relation.render_append_inj {left right : Relation} {rest later : List Char}
    (same : left.render.toList ++ rest = right.render.toList ++ later)
    (plain : '=' ∉ left.name.toList) (otherPlain : '=' ∉ right.name.toList)
    (readable : left.Readable) (otherReadable : right.Readable)
    (before : left.StandsBefore rest) (otherBefore : right.StandsBefore later) :
    left = right ∧ rest = later := by
  rw [Relation.toList_render, Relation.toList_render, List.append_assoc, List.append_assoc] at same
  obtain ⟨names, bodies⟩ := append_inj_of_boundary (fun character => character != '=')
    (by simpa [List.forall_mem_ne'] using plain) (by simpa [List.forall_mem_ne'] using otherPlain)
    (by simp) (by simp) same
  simp only [List.cons_append, List.cons.injEq, true_and] at bodies
  cases left with
  | child name node =>
      cases right with
      | child other otherNode =>
          obtain rfl : name = other := String.toList_injective names
          obtain ⟨rfl, rfl⟩ := Outline.render_append_inj bodies readable otherReadable before
            otherBefore
          exact ⟨rfl, rfl⟩
      | children other nodes =>
          obtain ⟨text, bracket⟩ := Outline.exists_textAll nodes
          rw [Relation.bodyText, Relation.bodyText, bracket] at bodies
          exact absurd bodies (Outline.render_append_ne_cons rfl)
  | children name nodes =>
      cases right with
      | child other node =>
          obtain ⟨text, bracket⟩ := Outline.exists_textAll nodes
          rw [Relation.bodyText, Relation.bodyText, bracket] at bodies
          exact absurd bodies.symm (Outline.render_append_ne_cons rfl)
      | children other otherNodes =>
          obtain rfl : name = other := String.toList_injective names
          obtain ⟨rfl, rfl⟩ := Outline.renderRest_append_inj (Outline.renderRest_append_eq bodies)
            (Relation.forall_mem_preorder_children.mp readable)
            (Relation.forall_mem_preorder_children.mp otherReadable) before otherBefore
          exact ⟨rfl, rfl⟩
termination_by structural left

theorem Outline.renderRest_append_inj {left right : List Outline} {rest later : List Char}
    (same : (Outline.renderRest left).toList ++ ']' :: rest =
      (Outline.renderRest right).toList ++ ']' :: later)
    (readable : ∀ node ∈ left, node.Readable) (otherReadable : ∀ node ∈ right, node.Readable)
    (other : ∀ node ∈ left, node.kind ≠ .infoString)
    (another : ∀ node ∈ right, node.kind ≠ .infoString) : left = right ∧ rest = later := by
  cases left with
  | nil =>
      cases right with
      | nil => exact ⟨rfl, (List.cons.inj same).2⟩
      | cons =>
          rw [Outline.toList_renderRest_cons] at same
          cases (List.cons.inj same).1
  | cons node nodes =>
      cases right with
      | nil =>
          rw [Outline.toList_renderRest_cons] at same
          cases (List.cons.inj same).1
      | cons second others =>
          simp only [Outline.toList_renderRest_cons, List.cons_append, List.append_assoc,
            List.cons.injEq, true_and] at same
          rw [List.forall_mem_cons] at readable otherReadable other another
          obtain ⟨rfl, behind⟩ := Outline.render_append_inj same readable.1 otherReadable.1
            (Outline.standsBefore_renderRest other.1 _ _)
            (Outline.standsBefore_renderRest another.1 _ _)
          obtain ⟨rfl, rfl⟩ := Outline.renderRest_append_inj behind readable.2 otherReadable.2
            other.2 another.2
          exact ⟨rfl, rfl⟩
termination_by structural left

end

end SheetLang
