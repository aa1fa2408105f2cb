import Mathlib.Data.List.Nodup
import SheetLang.Outline.Path

/-!
# Every node has one path

Where no node has two relations of one name, look-ups find every relation, the path to a
node leads to it, and no other path leads there.
-/

namespace SheetLang

/-- No node of an outline has two relations of one name. -/
def Outline.Distinct (outline : Outline) : Prop :=
  ∀ node ∈ outline.preorder, (node.relations.map Relation.name).Nodup

namespace Outline

variable {outline node : Outline} {name : String} {path : List Lookup}

/-! ## Look-ups -/

theorem relation?_of_mem (distinct : (outline.relations.map Relation.name).Nodup)
    {relation : Relation} (member : relation ∈ outline.relations) :
    outline.relation? relation.name = some relation := by
  unfold relation?
  generalize outline.relations = relations at distinct member
  induction relations with
  | nil => cases member
  | cons first others induction =>
      obtain ⟨different, later⟩ := List.nodup_cons.mp distinct
      cases List.mem_cons.mp member with
      | inl same =>
          subst same
          simp
      | inr behind =>
          have other : first.name ≠ relation.name := by
            intro same
            exact different (same ▸ List.mem_map_of_mem behind)
          rw [List.find?_cons_of_neg (by simpa using other)]
          exact induction later behind

theorem relation?_eq_some {relation : Relation} (found : outline.relation? name = some relation) :
    relation ∈ outline.relations ∧ relation.name = name :=
  ⟨List.mem_of_find?_eq_some found, by simpa using List.find?_some found⟩

theorem child?_eq_some_iff :
    outline.child? name = some node ↔ outline.relation? name = some (.child name node) := by
  unfold child?
  constructor
  · intro found
    split at found
    case h_1 label below seen =>
      cases found
      have same := (relation?_eq_some seen).2
      rw [seen, ← same]
      rfl
    · cases found
  · intro found
    rw [found]

theorem children?_eq_some_iff {nodes : List Outline} :
    outline.children? name = some nodes ↔ outline.relation? name = some (.children name nodes) := by
  unfold children?
  constructor
  · intro found
    split at found
    case h_1 label below seen =>
      cases found
      have same := (relation?_eq_some seen).2
      rw [seen, ← same]
      rfl
    · cases found
  · intro found
    rw [found]

/-- Of relations with different names each is found by its name. -/
theorem finds_of_mem (distinct : (outline.relations.map Relation.name).Nodup)
    {relation : Relation} (member : relation ∈ outline.relations) : outline.Finds relation := by
  have found := relation?_of_mem distinct member
  cases relation with
  | child name node => exact ⟨found, child?_eq_some_iff.mpr found⟩
  | children name nodes => exact ⟨found, children?_eq_some_iff.mpr found⟩

end Outline

/-! ## Paths that are followed -/

open Outline

mutual

/-- The paths lead to the nodes of the outline, in their order. -/
theorem Outline.follow?_paths (outline : Outline) (distinct : outline.Distinct) :
    outline.paths.map outline.follow? = outline.preorder.map some := by
  cases outline with
  | node kind value relations =>
      have own := distinct _ List.mem_cons_self
      have later : ∀ node ∈ Relation.preorderAll relations,
          (node.relations.map Relation.name).Nodup := by
        intro node member
        exact distinct node (List.mem_cons_of_mem _ member)
      have below := Relation.follow?_pathsAll (.node kind value relations) relations
        (fun relation member => relation?_of_mem own member) later
      simp only [Outline.paths, Outline.preorder, List.map_cons, below]
      rfl

theorem Relation.follow?_paths (root : Outline) (relation : Relation)
    (found : root.relation? relation.name = some relation)
    (distinct : ∀ node ∈ relation.preorder, (node.relations.map Relation.name).Nodup) :
    relation.paths.map root.follow? = relation.preorder.map some := by
  cases relation with
  | child name node =>
      have below := Outline.follow?_paths node distinct
      have step : root.lookup? (.child name) = some node := child?_eq_some_iff.mpr found
      simpa [Relation.paths, Relation.preorder, follow?, step, Function.comp_def] using below
  | children name nodes =>
      have whole : root.children? name = some ([] ++ nodes) := children?_eq_some_iff.mpr found
      exact Outline.follow?_pathsFrom root name [] nodes whole distinct

theorem Relation.follow?_pathsAll (root : Outline) (relations : List Relation)
    (found : ∀ relation ∈ relations, root.relation? relation.name = some relation)
    (distinct : ∀ node ∈ Relation.preorderAll relations,
      (node.relations.map Relation.name).Nodup) :
    (Relation.pathsAll relations).map root.follow? =
      (Relation.preorderAll relations).map some := by
  cases relations with
  | nil => rfl
  | cons relation others =>
      obtain ⟨first, behind⟩ := List.forall_mem_cons.mp found
      obtain ⟨front, back⟩ := List.forall_mem_append.mp distinct
      simp only [Relation.pathsAll, Relation.preorderAll, List.map_append,
        Relation.follow?_paths root relation first front,
        Relation.follow?_pathsAll root others behind back]

theorem Outline.follow?_pathsFrom (root : Outline) (name : String) (before nodes : List Outline)
    (found : root.children? name = some (before ++ nodes))
    (distinct : ∀ node ∈ Outline.preorderAll nodes,
      (node.relations.map Relation.name).Nodup) :
    (Outline.pathsFrom name before.length nodes).map root.follow? =
      (Outline.preorderAll nodes).map some := by
  cases nodes with
  | nil => rfl
  | cons node others =>
      obtain ⟨front, back⟩ := List.forall_mem_append.mp distinct
      have below := Outline.follow?_paths node front
      have step : root.lookup? (.member name before.length) = some node := by
        simp [lookup?, found]
      have whole : root.children? name = some ((before ++ [node]) ++ others) := by
        rw [found, List.append_assoc, List.singleton_append]
      have later := Outline.follow?_pathsFrom root name (before ++ [node]) others whole back
      rw [List.length_append, List.length_singleton] at later
      simp only [Outline.pathsFrom, Outline.preorderAll, List.map_append, later, ← below]
      simp [follow?, step, Function.comp_def]

end

/-! ## The list of paths -/

theorem Relation.mem_pathsAll {path : List Lookup} {relations : List Relation} :
    path ∈ Relation.pathsAll relations ↔ ∃ relation ∈ relations, path ∈ relation.paths := by
  induction relations with
  | nil => simp [Relation.pathsAll]
  | cons relation others induction => simp [Relation.pathsAll, induction]

theorem Outline.mem_pathsFrom {name : String} {place : Nat} {path : List Lookup}
    {nodes : List Outline} :
    path ∈ Outline.pathsFrom name place nodes ↔
      ∃ index node rest, nodes[index]? = some node ∧ rest ∈ node.paths ∧
        path = .member name (place + index) :: rest := by
  induction nodes generalizing place with
  | nil => simp [Outline.pathsFrom]
  | cons node others induction =>
      rw [Outline.pathsFrom, List.mem_append, List.mem_map, induction]
      constructor
      · rintro (⟨rest, member, rfl⟩ | ⟨index, below, rest, found, member, rfl⟩)
        · exact ⟨0, node, rest, rfl, member, rfl⟩
        · refine ⟨index + 1, below, rest, found, member, ?_⟩
          rw [Nat.add_assoc, Nat.add_comm 1]
      · rintro ⟨index, below, rest, found, member, rfl⟩
        cases index with
        | zero =>
            cases found
            exact .inl ⟨rest, member, rfl⟩
        | succ index =>
            refine .inr ⟨index, below, rest, found, member, ?_⟩
            rw [Nat.add_assoc, Nat.add_comm 1]

/-- A path through a relation begins with a look-up of its name. -/
theorem Relation.begins_of_mem_paths {relation : Relation} {path : List Lookup}
    (member : path ∈ relation.paths) :
    ∃ lookup rest, path = lookup :: rest ∧ lookup.name = relation.name := by
  cases relation with
  | child name node =>
      obtain ⟨rest, -, rfl⟩ := List.mem_map.mp member
      exact ⟨_, rest, rfl, rfl⟩
  | children name nodes =>
      obtain ⟨index, node, rest, -, -, rfl⟩ := Outline.mem_pathsFrom.mp member
      exact ⟨_, rest, rfl, rfl⟩

mutual

/-- No path is listed twice. -/
theorem Outline.nodup_paths (outline : Outline) (distinct : outline.Distinct) :
    outline.paths.Nodup := by
  cases outline with
  | node kind value relations =>
      have own := distinct _ List.mem_cons_self
      refine List.nodup_cons.mpr ⟨?_, Relation.nodup_pathsAll relations own ?_⟩
      · intro member
        obtain ⟨relation, -, first⟩ := Relation.mem_pathsAll.mp member
        obtain ⟨lookup, rest, impossible, -⟩ := Relation.begins_of_mem_paths first
        cases impossible
      · intro node member
        exact distinct node (List.mem_cons_of_mem _ member)

theorem Relation.nodup_paths (relation : Relation)
    (distinct : ∀ node ∈ relation.preorder, (node.relations.map Relation.name).Nodup) :
    relation.paths.Nodup := by
  cases relation with
  | child name node =>
      have below := Outline.nodup_paths node distinct
      exact below.map List.cons_injective
  | children name nodes => exact Outline.nodup_pathsFrom name 0 nodes distinct

theorem Relation.nodup_pathsAll (relations : List Relation)
    (names : (relations.map Relation.name).Nodup)
    (distinct : ∀ node ∈ Relation.preorderAll relations,
      (node.relations.map Relation.name).Nodup) :
    (Relation.pathsAll relations).Nodup := by
  cases relations with
  | nil => exact List.nodup_nil
  | cons relation others =>
      obtain ⟨different, later⟩ := List.nodup_cons.mp names
      obtain ⟨front, back⟩ := List.forall_mem_append.mp distinct
      refine (Relation.nodup_paths relation front).append
        (Relation.nodup_pathsAll others later back) ?_
      intro path here there
      obtain ⟨other, member, there⟩ := Relation.mem_pathsAll.mp there
      obtain ⟨lookup, rest, rfl, own⟩ := Relation.begins_of_mem_paths here
      obtain ⟨_, _, same, foreign⟩ := Relation.begins_of_mem_paths there
      cases same
      refine different (List.mem_map.mpr ⟨other, member, ?_⟩)
      rw [← foreign, own]

theorem Outline.nodup_pathsFrom (name : String) (place : Nat) (nodes : List Outline)
    (distinct : ∀ node ∈ Outline.preorderAll nodes,
      (node.relations.map Relation.name).Nodup) :
    (Outline.pathsFrom name place nodes).Nodup := by
  cases nodes with
  | nil => exact List.nodup_nil
  | cons node others =>
      obtain ⟨front, back⟩ := List.forall_mem_append.mp distinct
      have below := Outline.nodup_paths node front
      have behind := Outline.nodup_pathsFrom name (place + 1) others back
      refine (below.map List.cons_injective).append behind ?_
      intro path here there
      obtain ⟨rest, -, rfl⟩ := List.mem_map.mp here
      obtain ⟨index, _, _, -, -, same⟩ := Outline.mem_pathsFrom.mp there
      simp only [List.cons.injEq, Lookup.member.injEq] at same
      omega

end

theorem Outline.mem_paths_of_follow? {outline node : Outline} {path : List Lookup}
    (found : outline.follow? path = some node) : path ∈ outline.paths := by
  induction path generalizing outline with
  | nil =>
      cases outline
      exact List.mem_cons_self
  | cons lookup path induction =>
      obtain ⟨below, step, found⟩ := Option.bind_eq_some_iff.mp found
      have later := induction found
      cases outline with
      | node kind value relations =>
          refine List.mem_cons_of_mem _ (Relation.mem_pathsAll.mpr ?_)
          cases lookup with
          | child name =>
              have member := (relation?_eq_some (child?_eq_some_iff.mp step)).1
              exact ⟨_, member, List.mem_map.mpr ⟨path, later, rfl⟩⟩
          | member name place =>
              obtain ⟨nodes, listed, step⟩ := Option.bind_eq_some_iff.mp step
              have member := (relation?_eq_some (children?_eq_some_iff.mp listed)).1
              refine ⟨_, member, Outline.mem_pathsFrom.mpr ?_⟩
              exact ⟨place, below, path, step, later, by rw [Nat.zero_add]⟩

end SheetLang
