import TaskPlatform.RecursiveQuery
import TaskPlatform.TaskTable

/-! # `SubtaskService`: the hierarchy of tasks

    `getTaskTree`, `getDescendants` and `getAncestors` of
    `src/modules/subtask/subtask.service.ts`: a check that the task is there, a
    recursive query, and for the tree the two passes of `buildTree` over a map of
    node objects.

    A query without `ORDER BY` returns its rows in an order that Postgres is free to
    choose (`RowOrder`).  A query that needs more rounds than it is given counts as
    one that does not come back. -/

namespace PlatformTasks

open PlatformEntities RowTable RecursiveQuery

/-- The columns that the hierarchy queries select: a `TaskNode` without its
    `subTasks`. -/
structure TreeRow where
  id : String
  parentTaskId : Option String
  title : String
  description : Option String
  status : TaskStatus
  priority : TaskPriority
  assignedTo : Option String
  dueDate : Option Nat
  createdAt : Nat
  deriving DecidableEq, Repr

/-- A node with its `subTasks`. -/
abbrev TaskNode := RoseTree TreeRow

/-- The columns of the `SELECT`. -/
def selectColumns (t : Task) : TreeRow :=
  ⟨t.id, t.parentTaskId, t.title, t.description, t.status, t.priority, t.assignedTo,
    t.dueDate, t.createdAt⟩

/-- The order in which the rows of a query come back. -/
structure RowOrder where
  arrange : List TreeRow → List TreeRow
  perm : ∀ l, (arrange l).Perm l

/-! ## `buildTree` -/

/-- An object of the map, with the objects pushed to its `subTasks`. -/
structure NodeObject where
  task : TreeRow
  subTasks : List TreeRow

/-- An object is known by its task. -/
def NodeObject.id (o : NodeObject) : String := o.task.id

/-- A `Map` from ids to objects, in insertion order. -/
abbrev TaskMap := List NodeObject

/-- `taskMap.set(task.id, { ..task, subTasks: [] })`. -/
def setTask (taskMap : TaskMap) (task : TreeRow) : TaskMap :=
  upsert NodeObject.id ⟨task, []⟩ taskMap

/-- `if (task.parentTaskId && taskMap.has(task.parentTaskId))
    taskMap.get(task.parentTaskId)!.subTasks.push(task)`. -/
def pushSubTask (taskMap : TaskMap) (task : TreeRow) : TaskMap :=
  match truthy task.parentTaskId with
  | none => taskMap
  | some parent =>
      taskMap.map fun o =>
        if o.id = parent then { o with subTasks := o.subTasks ++ [task] } else o

/-- The `subTasks` of the object of a task. -/
def subTasksOf (taskMap : TaskMap) (task : TreeRow) : List TreeRow :=
  match lookup NodeObject.id task.id taskMap with
  | none => []
  | some o => o.subTasks

/-- The object of the root, read out with all that hangs below it.  `none` is `null`,
    or objects that hold themselves and that JSON cannot write. -/
def buildTree (flatTasks : List TreeRow) (rootId : String) : Option TaskNode :=
  let taskMap := flatTasks.foldl setTask []
  let linked := (taskMap.map NodeObject.task).foldl pushSubTask taskMap
  match lookup NodeObject.id rootId linked with
  | none => none
  | some root => grow (subTasksOf linked) linked.length root.task

/-! ### What `buildTree` builds -/

/-- Filling the map: one object for each row, if no id comes twice. -/
theorem foldl_setTask {l : List TreeRow} {taskMap : TaskMap}
    (hids : (taskMap.map NodeObject.id ++ l.map TreeRow.id).Nodup) :
    l.foldl setTask taskMap = taskMap ++ l.map fun row => ⟨row, []⟩ := by
  induction l generalizing taskMap with
  | nil => simp
  | cons row rest ih =>
      have hnew : lookup NodeObject.id (NodeObject.id ⟨row, []⟩) taskMap = none := by
        rw [lookup_eq_none]
        intro o ho heq
        obtain ⟨-, -, hdisj⟩ := List.nodup_append.mp hids
        exact hdisj _ (List.mem_map_of_mem ho) _ (List.mem_cons_self ..) heq
      rw [List.foldl_cons, setTask, upsert_of_none hnew, ih]
      · rw [List.append_assoc]
        rfl
      · rw [List.map_append, List.append_assoc]
        exact hids

/-- The rows of a list whose parent is the one of this id. -/
def childrenIn (l : List TreeRow) (id : String) : List TreeRow :=
  l.filter fun row => truthy row.parentTaskId = some id

/-- One push appends the task where its parent is. -/
theorem pushSubTask_eq (taskMap : TaskMap) (task : TreeRow) :
    pushSubTask taskMap task = taskMap.map fun o =>
      { o with subTasks := o.subTasks ++ childrenIn [task] o.id } := by
  unfold pushSubTask
  cases hp : truthy task.parentTaskId with
  | none =>
      have hsame : ∀ o : NodeObject,
          { o with subTasks := o.subTasks ++ childrenIn [task] o.id } = o := by
        intro o
        simp [childrenIn, hp]
      simp only [hsame, List.map_id']
  | some parent =>
      refine List.map_congr_left ?_
      intro o _
      by_cases ho : o.id = parent
      · simp [childrenIn, hp, ho]
      · have hne : ¬ parent = o.id := fun h => ho h.symm
        simp [childrenIn, hp, ho, hne]

/-- All pushes together: every object gets the rows that name it, in list order. -/
theorem foldl_pushSubTask (l : List TreeRow) (taskMap : TaskMap) :
    l.foldl pushSubTask taskMap = taskMap.map fun o =>
      { o with subTasks := o.subTasks ++ childrenIn l o.id } := by
  induction l generalizing taskMap with
  | nil => simp [childrenIn]
  | cons task rest ih =>
      rw [List.foldl_cons, ih, pushSubTask_eq, List.map_map]
      refine List.map_congr_left ?_
      intro o _
      show NodeObject.mk o.task ((o.subTasks ++ childrenIn [task] o.id)
        ++ childrenIn rest o.id) = ⟨o.task, o.subTasks ++ childrenIn (task :: rest) o.id⟩
      rw [List.append_assoc, childrenIn, childrenIn, ← List.filter_append]
      rfl

/-- The map after both passes. -/
def linkedMap (l : List TreeRow) : TaskMap :=
  l.map fun row => ⟨row, childrenIn l row.id⟩

theorem linkedMap_unique {l : List TreeRow} (hids : Unique TreeRow.id l) :
    Unique NodeObject.id (linkedMap l) := by
  show ((linkedMap l).map NodeObject.id).Nodup
  rw [linkedMap, List.map_map]
  exact hids

theorem buildTree_eq {l : List TreeRow} (hids : Unique TreeRow.id l) {root : TreeRow}
    (hroot : root ∈ l) :
    buildTree l root.id = grow (subTasksOf (linkedMap l)) l.length root := by
  have hfill : l.foldl setTask [] = l.map fun row => ⟨row, []⟩ := foldl_setTask hids
  have hlinked : ((l.foldl setTask []).map NodeObject.task).foldl pushSubTask
      (l.foldl setTask []) = linkedMap l := by
    rw [foldl_pushSubTask, hfill, List.map_map, List.map_map]
    refine List.map_congr_left ?_
    intro row _
    show NodeObject.mk row ([] ++ childrenIn _ row.id) = _
    rw [List.nil_append]
    congr
    exact List.map_id' l
  have hfound : lookup NodeObject.id root.id (linkedMap l)
      = some ⟨root, childrenIn l root.id⟩ :=
    lookup_eq_some (linkedMap_unique hids) (List.mem_map_of_mem hroot) rfl
  unfold buildTree
  simp only [hlinked, hfound]
  rw [linkedMap, List.length_map]

/-- A link of the built objects: both rows are in the list, and one names the other. -/
theorem link_subTasksOf {l : List TreeRow} (hids : Unique TreeRow.id l) {a b : TreeRow} :
    Link (subTasksOf (linkedMap l)) a b ↔
      (∃ p ∈ l, p.id = a.id) ∧ b ∈ l ∧ truthy b.parentTaskId = some a.id := by
  unfold Link subTasksOf
  constructor
  · intro h
    cases ho : lookup NodeObject.id a.id (linkedMap l) with
    | none =>
        rw [ho] at h
        exact absurd h List.not_mem_nil
    | some o =>
        rw [ho] at h
        obtain ⟨hmem, hoid⟩ := lookup_mem ho
        obtain ⟨row, hrow, rfl⟩ := List.mem_map.mp hmem
        obtain ⟨hb, hparent⟩ := List.mem_filter.mp h
        have hid : row.id = a.id := hoid
        rw [← hid]
        exact ⟨⟨row, hrow, rfl⟩, hb, of_decide_eq_true hparent⟩
  · rintro ⟨⟨p, hp, hpid⟩, hb, hparent⟩
    have hfound : lookup NodeObject.id a.id (linkedMap l) = some ⟨p, childrenIn l p.id⟩ :=
      lookup_eq_some (linkedMap_unique hids) (List.mem_map_of_mem hp) hpid
    rw [hfound]
    refine List.mem_filter.mpr ⟨hb, decide_eq_true ?_⟩
    rw [hpid]
    exact hparent

/-- **`buildTree` loses no row.**  Over rows with distinct ids, whose parents come
    earlier in some rank and all of which but the root have their parent among them,
    it returns the root with exactly these rows below it. -/
theorem buildTree_rows {l : List TreeRow} (hids : Unique TreeRow.id l) {root : TreeRow}
    (hroot : root ∈ l) (rank : String → Nat)
    (hup : ∀ a ∈ l, ∀ b ∈ l, truthy b.parentTaskId = some a.id → rank a.id < rank b.id)
    (hparent : ∀ b ∈ l, b ≠ root → ∃ a ∈ l, truthy b.parentTaskId = some a.id) :
    ∃ tree, buildTree l root.id = some tree ∧ ∀ row, row ∈ tree.rows ↔ row ∈ l := by
  obtain ⟨rank', hlt, hsame, hmono⟩ := exists_rank_lt_length (fun row => rank row.id) l
  have hclimbs : Climbs (subTasksOf (linkedMap l)) rank' l.length := by
    constructor
    · intro a b hlink
      obtain ⟨⟨p, hp, hpid⟩, hb, hb'⟩ := (link_subTasksOf hids).mp hlink
      rw [← hsame p a (congrArg rank hpid)]
      exact hmono p b hp (hup p hp b hb (hpid ▸ hb'))
    · intro a b hlink
      exact hlt b ((link_subTasksOf hids).mp hlink).2.1
  obtain ⟨tree, htree, hrows⟩ :=
    grow_rows hclimbs l.length root (hlt root hroot) (Nat.le_add_left ..)
  refine ⟨tree, by rw [buildTree_eq hids hroot, htree], ?_⟩
  intro row
  rw [hrows]
  constructor
  · intro hchain
    rcases Relation.ReflTransGen.cases_tail hchain with rfl | ⟨b, -, hlink⟩
    · exact hroot
    · exact ((link_subTasksOf hids).mp hlink).2.1
  · -- upwards from the row, the rank going down
    intro hrow
    induction hn : rank row.id using Nat.strong_induction_on generalizing row with
    | _ n ih =>
        by_cases heq : row = root
        · rw [heq]
        · obtain ⟨a, ha, hpa⟩ := hparent row hrow heq
          have hbelow : rank a.id < n := hn ▸ hup a ha row hrow hpa
          exact (ih _ hbelow a ha rfl).tail
            ((link_subTasksOf hids).mpr ⟨⟨a, ha, rfl⟩, hrow, hpa⟩)

/-! ## The queries -/

section Queries

variable (order : RowOrder) (rounds : Nat) (db : Database)

/-- `SELECT id FROM tasks WHERE id = $1 AND "workspaceId" = $2 AND "deletedAt" IS NULL`
    finds a row. -/
def taskCheck (taskId workspaceId : String) : Bool :=
  db.tasks.any fun t => t.id = taskId && t.workspaceId = workspaceId && t.deletedAt.isNone

/-- `SELECT .. FROM tasks t WHERE ..`. -/
def selectTasks (condition : Task → Bool) : List TreeRow :=
  (db.tasks.filter condition).map selectColumns

/-- The recursive term of all three queries:
    `INNER JOIN .. ON t."parentTaskId" = st.id WHERE t."deletedAt" IS NULL`. -/
def joinSubtasks (st : TreeRow) : List TreeRow :=
  selectTasks db fun t => t.parentTaskId = some st.id && t.deletedAt.isNone

/-- Run a hierarchy query for a task of the workspace. -/
def hierarchyQuery {α : Type} (taskId workspaceId : String) (base : List TreeRow)
    (result : List TreeRow → α) : Option (Except HttpError α) :=
  if taskCheck db taskId workspaceId then
    (withRecursive (joinSubtasks db) rounds base).map fun rows =>
      .ok (result (order.arrange rows))
  else
    some (.error (.notFound "Task not found in this workspace"))

/-- `getTaskTree`. -/
def getTaskTree (taskId workspaceId : String) :
    Option (Except HttpError (Option TaskNode)) :=
  hierarchyQuery order rounds db taskId workspaceId
    (selectTasks db fun t =>
      t.id = taskId && t.workspaceId = workspaceId && t.deletedAt.isNone)
    (fun flatTasks => buildTree flatTasks taskId)

/-- `ORDER BY "createdAt" ASC`. -/
def getDescendants (taskId workspaceId : String) :
    Option (Except HttpError (List TreeRow)) :=
  hierarchyQuery order rounds db taskId workspaceId
    (selectTasks db fun t =>
      t.parentTaskId = some taskId && t.workspaceId = workspaceId && t.deletedAt.isNone)
    (List.insertionSort fun a b => a.createdAt ≤ b.createdAt)

/-- `(SELECT "parentTaskId" FROM tasks WHERE id = $1 AND "workspaceId" = $2 AND
    "deletedAt" IS NULL)`. -/
def parentOf (taskId workspaceId : String) : Option String :=
  (db.tasks.find? fun t =>
    t.id = taskId && t.workspaceId = workspaceId && t.deletedAt.isNone).bind
      Task.parentTaskId

/-- `ORDER BY "createdAt" DESC`.  The recursive term is that of the other two
    queries, so from the parent it walks down. -/
def getAncestors (taskId workspaceId : String) :
    Option (Except HttpError (List TreeRow)) :=
  hierarchyQuery order rounds db taskId workspaceId
    (selectTasks db fun t =>
      parentOf db taskId workspaceId = some t.id && t.deletedAt.isNone)
    (List.insertionSort fun a b => b.createdAt ≤ a.createdAt)

end Queries

end PlatformTasks
