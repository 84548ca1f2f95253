import TaskPlatform.SubtaskService

/-! # The tree that `buildTree` builds

    From the rows of a tree, in whatever order they come, `buildTree` returns that tree:
    every row once, under the row that it names as its parent, the children of a node in
    the order of the list (`buildTree_faithful`). -/

namespace PlatformTasks

open PlatformEntities RowTable RecursiveQuery Relation

/-- Both rows are in the list, and `b` names `a` as its parent. -/
structure ChildIn (l : List TreeRow) (a b : TreeRow) : Prop where
  parent_mem : a ∈ l
  mem : b ∈ l
  parent : b.parentTaskId = some a.id

/-- The rows of one tree.  Ids are uuids, so none of them is the empty text. -/
structure TreeRows (l : List TreeRow) (root : TreeRow) : Prop where
  ids : Unique TreeRow.id l
  named : ∀ row ∈ l, row.id ≠ ""
  root_mem : root ∈ l
  parents : ∀ row ∈ l, row ≠ root → ∃ a ∈ l, row.parentTaskId = some a.id
  acyclic : ∀ a, ¬ TransGen (ChildIn l) a a
  top : ∀ a ∈ l, root.parentTaskId ≠ some a.id

section Rows

variable {l : List TreeRow} {root : TreeRow}

/-- An id of the list counts as true, so the test of `buildTree` does not drop it. -/
theorem TreeRows.truthy_iff (h : TreeRows l root) {a b : TreeRow} (ha : a ∈ l) :
    truthy b.parentTaskId = some a.id ↔ b.parentTaskId = some a.id := by
  cases hp : b.parentTaskId with
  | none => exact Iff.rfl
  | some x =>
      show (if x = "" then none else some x) = some a.id ↔ _
      by_cases hx : x = ""
      · rw [if_pos hx]
        refine ⟨fun h => (by cases h), fun heq => ?_⟩
        exact absurd (Option.some.inj heq ▸ hx) (h.named a ha)
      · rw [if_neg hx]

/-- From a row of the list, the links of the built objects are those of the rows. -/
theorem TreeRows.link_iff (h : TreeRows l root) {a b : TreeRow} (ha : a ∈ l) :
    Link (subTasksOf (linkedMap l)) a b ↔ ChildIn l a b := by
  rw [link_subTasksOf h.ids, h.truthy_iff ha]
  constructor
  · rintro ⟨-, hb, hparent⟩
    exact ⟨ha, hb, hparent⟩
  · intro hc
    exact ⟨⟨a, ha, rfl⟩, hc.mem, hc.parent⟩

/-- The objects pushed to the `subTasks` of a row: its children in list order. -/
theorem TreeRows.subTasksOf_eq (h : TreeRows l root) {a : TreeRow} (ha : a ∈ l) :
    subTasksOf (linkedMap l) a = l.filter fun row => row.parentTaskId = some a.id := by
  have hfound : lookup NodeObject.id a.id (linkedMap l) = some ⟨a, childrenIn l a.id⟩ :=
    lookup_eq_some (linkedMap_unique h.ids) (List.mem_map_of_mem ha) rfl
  unfold subTasksOf
  rw [hfound]
  refine List.filter_congr ?_
  intro row _
  exact decide_eq_decide.mpr (h.truthy_iff ha)

/-- Every row has one parent. -/
theorem TreeRows.oneParent (h : TreeRows l root) :
    OneParent (subTasksOf (linkedMap l)) (fun row => row ∈ l) where
  closed a ha b hlink := ((h.link_iff ha).mp hlink).mem
  unique a b x ha hb hax hbx := by
    have hab := ((h.link_iff ha).mp hax).parent.symm.trans ((h.link_iff hb).mp hbx).parent
    exact h.ids.eq_of_key ha hb (Option.some.inj hab)
  nodup a ha := by
    rw [h.subTasksOf_eq ha]
    exact (List.Nodup.of_map TreeRow.id h.ids).filter _

/-- No object holds itself. -/
theorem TreeRows.not_below_self (h : TreeRows l root) {a : TreeRow} (ha : a ∈ l) :
    ¬ TransGen (Link (subTasksOf (linkedMap l))) a a := by
  have hchain : ∀ b, TransGen (Link (subTasksOf (linkedMap l))) a b →
      TransGen (ChildIn l) a b ∧ b ∈ l := by
    intro b hab
    induction hab with
    | single hlink =>
        have hc := (h.link_iff ha).mp hlink
        exact ⟨.single hc, hc.mem⟩
    | tail _ hlink ih =>
        have hc := (h.link_iff ih.2).mp hlink
        exact ⟨ih.1.tail hc, hc.mem⟩
  exact fun hself => h.acyclic a (hchain a hself).1

/-- `buildTree` comes back with a tree that holds exactly the rows of the list. -/
theorem TreeRows.built (h : TreeRows l root) :
    ∃ tree, buildTree l root.id = some tree ∧ ∀ row, row ∈ tree.rows ↔ row ∈ l := by
  obtain ⟨rank, hrank⟩ := exists_rank l (fun a b hab => ChildIn.parent_mem hab) h.acyclic
  -- the rank of an id is that of its row
  let rankOf : String → Nat := fun id => ((lookup TreeRow.id id l).map rank).getD 0
  have hrankOf : ∀ a ∈ l, rankOf a.id = rank a := by
    intro a ha
    show ((lookup TreeRow.id a.id l).map rank).getD 0 = rank a
    rw [lookup_eq_some h.ids ha rfl]
    rfl
  refine buildTree_rows h.ids h.root_mem rankOf ?_ ?_
  · intro a ha b hb hparent
    rw [hrankOf a ha, hrankOf b hb]
    exact hrank a b ⟨ha, hb, (h.truthy_iff ha).mp hparent⟩
  · intro b hb hne
    obtain ⟨a, ha, hparent⟩ := h.parents b hb hne
    exact ⟨a, ha, (h.truthy_iff ha).mpr hparent⟩

end Rows

/-- **`buildTree` is faithful.**  From the rows of a tree in any order it returns the
    root; the rows of the returned tree are those of the list, each once; and the children
    of every node are the rows that name it as their parent, in list order. -/
theorem buildTree_faithful (l : List TreeRow) (root : TreeRow) (h : TreeRows l root) :
    ∃ tree, buildTree l root.id = some tree ∧ tree.row = root ∧ tree.rows.Perm l ∧
      ∀ node : TaskNode, node.Part tree →
        node.children.map RoseTree.row
          = l.filter fun row => row.parentTaskId = some node.row.id := by
  obtain ⟨tree, hbuilt, hrows⟩ := h.built
  have hgrown : grow (subTasksOf (linkedMap l)) l.length root = some tree := by
    rw [← buildTree_eq h.ids h.root_mem]
    exact hbuilt
  have hnodup : tree.rows.Nodup :=
    grow_nodup h.oneParent (fun a ha => h.not_below_self ha) h.root_mem hgrown
  refine ⟨tree, hbuilt, grow_row hgrown, ?_, ?_⟩
  · exact (List.perm_ext_iff_of_nodup hnodup (List.Nodup.of_map TreeRow.id h.ids)).mpr hrows
  · intro node hnode
    rw [grow_children hnode hgrown]
    exact h.subTasksOf_eq ((hrows _).mp hnode.row_mem)

/-- A row of a small tree. -/
def smallRow (id : String) (parentTaskId : Option String) : TreeRow :=
  ⟨id, parentTaskId, id, none, .todo, .medium, none, none, 0⟩

/-- A grandchild before its parent, and the root last. -/
def smallRows : List TreeRow :=
  [smallRow "c" (some "b"), smallRow "b" (some "a"), smallRow "d" (some "a"),
    smallRow "a" (some "elsewhere")]

theorem smallRows_tree : TreeRows smallRows (smallRow "a" (some "elsewhere")) where
  ids := by decide
  named := by decide
  root_mem := by decide
  parents := by decide
  acyclic := by
    -- the depth goes up with every link
    let depth : TreeRow → Nat := fun row =>
      if row.id = "c" then 2 else if row.id = "a" then 0 else 1
    have hstep : ∀ a ∈ smallRows, ∀ b ∈ smallRows, b.parentTaskId = some a.id →
        depth a < depth b := by decide
    have hup : ∀ a b, TransGen (ChildIn smallRows) a b → depth a < depth b := by
      intro a b hab
      induction hab with
      | single hc => exact hstep _ hc.parent_mem _ hc.mem hc.parent
      | tail _ hc ih => exact ih.trans (hstep _ hc.parent_mem _ hc.mem hc.parent)
    exact fun a hself => absurd (hup a a hself) (lt_irrefl _)
  top := by decide

theorem buildTree_faithful_small :
    ∃ tree, buildTree smallRows "a" = some tree ∧
      tree.row = smallRow "a" (some "elsewhere") ∧ tree.rows.Perm smallRows ∧
      ∀ node : TaskNode, node.Part tree →
        node.children.map RoseTree.row
          = smallRows.filter fun row => row.parentTaskId = some node.row.id :=
  buildTree_faithful smallRows (smallRow "a" (some "elsewhere")) smallRows_tree

end PlatformTasks
