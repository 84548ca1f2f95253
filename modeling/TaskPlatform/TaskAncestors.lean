import TaskPlatform.TaskHierarchy

/-! # The upward hierarchy query

    The recursive term of `getAncestors` joins the tasks whose parent is already in
    the result, as the downward queries do, where the way to the root asks for the
    parent of what is in the result.  From the parent of a task the query so comes
    back down to the task itself and its siblings, and the path to the root is what it
    returns exactly where there is no live parent to start from
    (`ancestors_exact_iff`). -/

namespace PlatformTasks

open AsyncProgram Interleaving PlatformEntities RowTable RecursiveQuery Relation

/-! ## The path to the root -/

/-- No live task is the parent of `t`. -/
def Top (db : Database) (t : Task) : Prop :=
  ∀ p ∈ db.tasks, p.deletedAt = none → t.parentTaskId ≠ some p.id

/-- The proper ancestors of `t` through live tasks: the parent first, and up to the task
    that has no live parent. -/
inductive PathUp (db : Database) : Task → List Task → Prop where
  | top {t : Task} (h : Top db t) : PathUp db t []
  | step {t p : Task} {path : List Task} (hp : p ∈ db.tasks) (hlive : p.deletedAt = none)
      (hparent : t.parentTaskId = some p.id) (h : PathUp db p path) :
      PathUp db t (p :: path)

/-- `t` hangs below every task of its path. -/
theorem PathUp.above {db : Database} {t : Task} {path : List Task} (h : PathUp db t path)
    (ht : t ∈ db.tasks) (hlive : t.deletedAt = none) :
    ∀ p ∈ path, p ∈ db.tasks ∧ TransGen (LiveChild db) p t := by
  induction h with
  | top htop =>
      intro p hp
      exact absurd hp List.not_mem_nil
  | step hp hplive hparent _ ih =>
      intro q hq
      rcases List.mem_cons.mp hq with rfl | hq
      · exact ⟨hp, .single ⟨ht, hlive, hparent⟩⟩
      · obtain ⟨hmem, hchain⟩ := ih hp hplive q hq
        exact ⟨hmem, hchain.tail ⟨ht, hlive, hparent⟩⟩

/-- The task itself is not on its path. -/
theorem PathUp.not_self {db : Database} (hids : Unique Task.id db.tasks)
    (hparents : ParentsFirst db.tasks) {t : Task} {path : List Task} (h : PathUp db t path)
    (ht : t ∈ db.tasks) (hlive : t.deletedAt = none) :
    selectColumns t ∉ path.map selectColumns := by
  intro hmem
  obtain ⟨p, hp, heq⟩ := List.mem_map.mp hmem
  obtain ⟨hstored, hchain⟩ := h.above ht hlive p hp
  rw [selectColumns_inj hids hstored ht (congrArg TreeRow.id heq)] at hchain
  exact not_below_self hids hparents t hchain

/-- `getAncestors` returns the path to the root. -/
def AncestorsExact (order : RowOrder) (rounds : Nat) (db : Database) (t : Task) : Prop :=
  ∃ path, PathUp db t path ∧
    getAncestors order rounds db t.id t.workspaceId = some (.ok (path.map selectColumns))

/-- **When the ancestors are exact.**  In every reachable table, for every live task and
    whatever order the rows come back in: `getAncestors` returns the path to the root
    exactly when the task has no live parent, and so no ancestors. -/
theorem ancestors_exact_iff (pg : PostgresText) (s : TaskState) (hs : Reachable pg s)
    (t : Task) (ht : t ∈ s.db.tasks) (hlive : t.deletedAt = none) (order : RowOrder)
    (rounds : Nat) (hr : s.db.tasks.length ≤ rounds) :
    AncestorsExact order rounds s.db t ↔ Top s.db t := by
  obtain ⟨hids, -, hparents, -, -⟩ := hs.consistent
  obtain ⟨rows, hanswer, hrows⟩ := getAncestors_rows hids hparents ht hlive order hr
  constructor
  · rintro ⟨path, hpath, hexact⟩ p hp hplive hparent
    rw [hanswer] at hexact
    cases hexact
    -- the task hangs below its parent, so the query comes back to it
    have hself : selectColumns t ∈ path.map selectColumns :=
      (hrows _).mpr ⟨p, t, hp, hplive, hparent, .single ⟨ht, hlive, hparent⟩, rfl⟩
    exact hpath.not_self hids hparents ht hlive hself
  · intro htop
    refine ⟨[], .top htop, ?_⟩
    have hnone : rows = [] := by
      refine List.eq_nil_iff_forall_not_mem.mpr ?_
      intro row hrow
      obtain ⟨p, -, hp, hplive, hparent, -⟩ := (hrows row).mp hrow
      exact htop p hp hplive hparent
    rw [hanswer, hnone]
    rfl

/-- The task "1" of the office, and a second later a subtask "2" of it. -/
def laterSubtask : TaskState :=
  (run (exec plainText)
    (pool office [.createTask "w" "p" "a" { title := "Plan" },
      .createTask "w" "p" "b" { title := "Step", parentTaskId := some "1" }])
    (turns [0, 0, 0, 0, 0] ++ [1, 1, 1, 1, 1].map fun i => (i, ⟨1, [], "2"⟩))).shared

/-- The row of the task "2". -/
def stepTask : Task :=
  (NewTask.mk "w" "p" "Step" none (some "1") .medium .todo none none none (some []) "b").row
    "2" 1

/-- The row of a task "3" below it. -/
def detailTask : Task :=
  (NewTask.mk "w" "p" "Detail" none (some "2") .medium .todo none none none (some []) "b").row
    "3" 0

/-- The three tasks below each other, and then the first is deleted. -/
def withoutParent : TaskState :=
  (run (exec plainText)
    (pool office [.createTask "w" "p" "a" { title := "Plan" },
      .createTask "w" "p" "b" { title := "Step", parentTaskId := some "1" },
      .createTask "w" "p" "b" { title := "Detail", parentTaskId := some "2" },
      .deleteTask "1" "w" "a"])
    ([0, 0, 0, 0, 0, 1, 1, 1, 1, 1, 2, 2, 2, 2, 2, 3, 3, 3, 3, 3, 3, 3, 3, 3, 3].map
      fun i => (i, ⟨0, [], toString (i + 1)⟩))).shared

/-- Where the parent is deleted there is nothing to return; where it is live, the query does
    not return the path. -/
theorem ancestors_exact_root :
    AncestorsExact asStored 3 withoutParent.db { stepTask with createdAt := 0, updatedAt := 0 } ∧
      ¬ AncestorsExact asStored 3 withoutParent.db detailTask := by
  have hreachable : Reachable plainText withoutParent :=
    ⟨office, _, _, ⟨rfl, fun _ => rfl⟩, rfl⟩
  constructor
  · refine (ancestors_exact_iff plainText withoutParent hreachable _ (by decide) rfl asStored 3
      (by decide)).mpr ?_
    unfold Top
    decide
  · intro hexact
    have htop := (ancestors_exact_iff plainText withoutParent hreachable detailTask (by decide)
      rfl asStored 3 (by decide)).mp hexact
    exact htop { stepTask with createdAt := 0, updatedAt := 0 } (by decide) rfl rfl

/-- The ancestors of the subtask: itself, and only then its parent. -/
theorem ancestors_hold_self :
    Reachable plainText laterSubtask ∧ laterSubtask.db.tasks = [planTask, stepTask] ∧
      planTask.createdAt < stepTask.createdAt ∧
      getAncestors asStored 2 laterSubtask.db "2" "w"
        = some (.ok [selectColumns stepTask, selectColumns planTask]) ∧
      ¬ AncestorsExact asStored 2 laterSubtask.db stepTask := by
  have hanswer : getAncestors asStored 2 laterSubtask.db "2" "w"
      = some (.ok [selectColumns stepTask, selectColumns planTask]) := by decide
  refine ⟨⟨office, _, _, ⟨rfl, fun _ => rfl⟩, rfl⟩, by decide, by decide, hanswer, ?_⟩
  rintro ⟨path, hpath, hexact⟩
  have hrows : path.map selectColumns = [selectColumns stepTask, selectColumns planTask] :=
    (Except.ok.inj (Option.some.inj (hanswer.symm.trans hexact))).symm
  -- the first of the path is the parent "1", the first row is "2"
  cases hpath with
  | top h => cases hrows
  | step hp _ hparent _ =>
      have hid := congrArg TreeRow.id (List.cons.inj hrows).1
      have hparent' := Option.some.inj hparent
      exact absurd (hparent'.trans hid) (by decide)

end PlatformTasks
