import TaskPlatform.ApiRuns

/-! # The hierarchy is a forest

    Nothing in the services looks for cycles.  What keeps them out is the order in which
    tasks were made: a task is inserted under a parent that is there, its identity never
    changes, and stale objects that are written back, even after a deletion, are copies
    of tasks made before (`Rooted`).  Along parent links the time of making goes back,
    so there is no cycle, and the three recursive queries end (`task_forest`). -/

namespace PlatformApi

open AsyncProgram Interleaving PlatformEntities PlatformTasks RowTable
open RecursiveQuery Relation

/-! ## Made tasks -/

/-- A task with this identity has been inserted. -/
def Made (h : ApiHistory) (t : Task) : Prop := ∃ m ∈ h.made, SameIdentity m t

theorem Made.same {h : ApiHistory} {t t' : Task} (ht : Made h t) (heq : SameIdentity t t') :
    Made h t' := by
  obtain ⟨m, hm, hmt⟩ := ht
  exact ⟨m, hm, hmt.trans heq⟩

/-- Tasks that are stored or cached, or that a call has loaded, have been made, each
    under a parent that was made before. -/
structure Rooted (h : ApiHistory) : Prop where
  ids : RowTable.Unique Task.id h.made
  parents : ParentsFirst h.made
  issued : ∀ m ∈ h.made, m.id ∈ h.issued
  stored : RowTable.Unique Task.id h.state.db.tasks
  rows : ∀ r ∈ h.state.db.tasks, Made h r
  cached : ∀ k t, h.state.cache k = some (.task t) → Made h t.row

/-- A task that was loaded has been made. -/
def Loaded (h : ApiHistory) : Known → Prop
  | .task t => Made h t
  | _ => True

/-- What has been made stays made. -/
theorem made_step (pg : Postgres) (ω : Choice) (op : ApiOp) {h : ApiHistory} {t : Task}
    (ht : Made h t) : Made (historyExec pg ω op h).1 t := by
  obtain ⟨m, hm, hmt⟩ := ht
  exact ⟨m, List.mem_append_left _ hm, hmt⟩

/-- The tasks of a step, and those that have been made. -/
theorem Rooted.tasks_step {h : ApiHistory} (hr : Rooted h) {ω : Choice} {op : ApiOp}
    (hop : ∀ e, op = .task (.save e) → Made h e.row) {tasks new : List Task}
    (hstep : TaskStep (h.fresh ω) h.state op tasks new) :
    RowTable.Unique Task.id (h.made ++ new) ∧ ParentsFirst (h.made ++ new) ∧
      (∀ m ∈ h.made ++ new, m.id ∈ ω.newId :: h.issued) ∧ RowTable.Unique Task.id tasks ∧
      ∀ r ∈ tasks, ∃ m ∈ h.made ++ new, SameIdentity m r := by
  have hmade : RowTable.Unique Task.id (h.made ++ []) ∧ ParentsFirst (h.made ++ []) ∧
      ∀ m ∈ h.made ++ [], m.id ∈ ω.newId :: h.issued := by
    rw [List.append_nil]
    exact ⟨hr.ids, hr.parents, fun m hm => List.mem_cons_of_mem _ (hr.issued m hm)⟩
  have hrows : ∀ r ∈ h.state.db.tasks, ∃ m ∈ h.made ++ new, SameIdentity m r := by
    intro r hmem
    obtain ⟨m, hm, hmr⟩ := hr.rows r hmem
    exact ⟨m, List.mem_append_left _ hm, hmr⟩
  cases hstep with
  | same op => exact ⟨hmade.1, hmade.2.1, hmade.2.2, hr.stored, hrows⟩
  | @insert n row wanted hnew keys named =>
      have hid : row.id = (h.fresh ω).newId := by rw [wanted]; rfl
      obtain ⟨hω, hfresh⟩ := fresh_newId (hid ▸ named)
      have hunmade : lookup Task.id row.id h.made = none := by
        rw [lookup_eq_none]
        intro m hm heq
        rw [hid, hω] at heq
        exact hfresh (heq ▸ hr.issued m hm)
      refine ⟨hr.ids.append hunmade, hr.parents.append ?_, ?_, hr.stored.append hnew, ?_⟩
      · -- the parent is stored, so it has been made
        intro x hx
        obtain ⟨p, hp, hpx⟩ := (foreignKeysHold_iff.mp keys).2.2.1 x hx
        obtain ⟨m, hm, hmp⟩ := hr.rows p hp
        exact ⟨m, hm, hmp.id.trans hpx⟩
      · intro m hm
        rcases List.mem_append.mp hm with hm | hm
        · exact List.mem_cons_of_mem _ (hr.issued m hm)
        · rw [List.mem_singleton.mp hm, hid, hω]
          exact List.mem_cons_self ..
      · intro r hmem
        rcases List.mem_append.mp hmem with hmem | hmem
        · exact hrows r hmem
        · rw [List.mem_singleton.mp hmem]
          exact ⟨row, List.mem_append_right _ (List.mem_singleton.mpr rfl),
            SameIdentity.refl row⟩
  | @reinsert e row wanted gone keys =>
      refine ⟨hmade.1, hmade.2.1, hmade.2.2, hr.stored.append gone, ?_⟩
      intro r hmem
      rcases List.mem_append.mp hmem with hmem | hmem
      · exact hrows r hmem
      · -- a stale object, written back after its row is gone
        rw [List.mem_singleton.mp hmem, List.append_nil]
        exact (hop e rfl).same (toRow_some wanted).1.symm
  | @update e old row wanted stored keys =>
      refine ⟨hmade.1, hmade.2.1, hmade.2.2, hr.stored.replace _, ?_⟩
      intro r hmem
      rcases mem_replace.mp hmem with ⟨rfl, -⟩ | ⟨hmem, -⟩
      · rw [List.append_nil]
        exact ((hop e rfl).same (toRow_some wanted).1.symm).same
          (updateRow_identity _ _ _).symm
      · exact hrows r hmem
  | @softRemove t row stored =>
      refine ⟨hmade.1, hmade.2.1, hmade.2.2, hr.stored.replace _, ?_⟩
      intro r hmem
      rcases mem_replace.mp hmem with ⟨rfl, -⟩ | ⟨hmem, -⟩
      · obtain ⟨m, hm, hmr⟩ := hrows row (lookup_mem stored).1
        exact ⟨m, hm, hmr.trans (markDeleted_identity _ _).symm⟩
      · exact hrows r hmem
  | removeProject id =>
      exact ⟨hmade.1, hmade.2.1, hmade.2.2, Unique.filter hr.stored _,
        fun r hmem => hrows r (List.mem_of_mem_filter hmem)⟩
  | removeWorkspace id =>
      exact ⟨hmade.1, hmade.2.1, hmade.2.2, Unique.filter hr.stored _,
        fun r hmem => hrows r (List.mem_of_mem_filter hmem)⟩

theorem rooted_step (pg : Postgres) (ω : Choice) (op : ApiOp) (h : ApiHistory)
    (K : Known → Prop) (hr : Rooted h) (hK : ∀ x, K x → Loaded h x)
    (hneeds : apiLearning.needs K op) : Rooted (historyExec pg ω op h).1 := by
  have hsave : ∀ e, op = .task (.save e) → Made h e.row := by
    rintro e rfl
    obtain ⟨t, ht, hte⟩ := hneeds
    exact Made.same (hK _ ht) hte
  obtain ⟨hids, hparents, hissued, hstored, hrows⟩ :=
    hr.tasks_step hsave (apiExec_tasks pg (h.fresh ω) op h.state)
  refine ⟨hids, hparents, hissued, hstored, hrows, ?_⟩
  intro k t hkt
  refine made_step pg ω op ?_
  rcases apiExec_cache pg hkt with hkt | ⟨ttl, rfl⟩
  · exact hr.cached k t hkt
  · exact hK _ hneeds

/-- Whatever calls load, and whatever they save or cache, has been made. -/
theorem rooted_sound (pg : Postgres) :
    Sound (historyExec pg) apiLearning Loaded Rooted fun _ _ => True := by
  constructor
  intro ω op h K hr hK hneeds _
  refine ⟨rooted_step pg ω op h K hr hK hneeds, ?_, ?_⟩
  · intro x hx
    cases x with
    | task t => exact made_step pg ω op hx
    | _ => trivial
  · intro x hx
    cases x with
    | task t =>
        refine made_step pg ω op ?_
        have ht : Taught K h.state (.task t) := taught hx
        cases ht with
        | cachedTask hit => exact hr.cached _ _ hit
        | storedTask found => exact hr.rows _ (findOneTask_some found).2.1
    | _ => trivial

/-! ## No cycle -/

/-- The query ends within as many rounds as there are rows, and returns no row twice. -/
def EndsOnce (db : Database) (base : List TreeRow) : Prop :=
  ∃ rows, withRecursive (joinSubtasks db) db.tasks.length base = some rows ∧
    RowTable.Unique TreeRow.id rows

/-- The base rows of the three queries. -/
def SubtaskQuery.base (db : Database) (taskId workspaceId : String) :
    SubtaskQuery → List TreeRow
  | .tree => selectTasks db fun t =>
      t.id = taskId && t.workspaceId = workspaceId && t.deletedAt.isNone
  | .descendants => selectTasks db fun t =>
      t.parentTaskId = some taskId && t.workspaceId = workspaceId && t.deletedAt.isNone
  | .ancestors => selectTasks db fun t =>
      parentOf db taskId workspaceId = some t.id && t.deletedAt.isNone

/-- When a task was made. -/
def birth (h : ApiHistory) (id : String) : Nat := (h.made.map Task.id).idxOf id

section Rooted

variable {h : ApiHistory} (hr : Rooted h)

include hr in
theorem birth_parent {b : Task} (hb : b ∈ h.state.db.tasks) {x : String}
    (hx : b.parentTaskId = some x) : birth h x < birth h b.id := by
  obtain ⟨m, hm, hmb⟩ := hr.rows b hb
  let made : Database := { h.state.db with tasks := h.made }
  have hplace : place made x < place made m.id :=
    place_parent hr.ids hr.parents hm (hmb.parentTaskId.trans hx)
  have hlt : birth h x < birth h m.id := hplace
  rw [hmb.id] at hlt
  exact hlt

include hr in
theorem birth_lt {b : Task} (hb : b ∈ h.state.db.tasks) : birth h b.id < h.made.length := by
  obtain ⟨m, hm, hmb⟩ := hr.rows b hb
  let made : Database := { h.state.db with tasks := h.made }
  have hplace : place made m.id < made.tasks.length := place_lt hm
  have hlt : birth h m.id < h.made.length := hplace
  rw [hmb.id] at hlt
  exact hlt

include hr in
theorem no_cycle (t : Task) : ¬ TransGen (ChildRow h.state.db) t t := by
  have hup : ∀ {a b}, TransGen (ChildRow h.state.db) a b → birth h a.id < birth h b.id := by
    intro a b hchain
    induction hchain with
    | single hlink => exact birth_parent hr hlink.stored hlink.parent
    | tail _ hlink ih => exact ih.trans (birth_parent hr hlink.stored hlink.parent)
  exact fun hcycle => absurd (hup hcycle) (lt_irrefl _)

/-! ## The queries end -/

include hr in
theorem joinSubtasks_born :
    Climbs (joinSubtasks h.state.db) (fun row => birth h row.id) h.made.length := by
  constructor
  · intro st row hlink
    obtain ⟨b, hb, -, hparent, rfl⟩ := link_joinSubtasks.mp hlink
    exact birth_parent hr hb hparent
  · intro st row hlink
    obtain ⟨b, hb, -, -, rfl⟩ := link_joinSubtasks.mp hlink
    exact birth_lt hr hb

include hr in
/-- A recursive query whose base rows are not below each other. -/
theorem query_ends {condition : Task → Bool}
    (hanti : ∀ a ∈ h.state.db.tasks, ∀ b ∈ h.state.db.tasks, condition a = true →
      condition b = true →
        ¬ TransGen (Link (joinSubtasks h.state.db)) (selectColumns a) (selectColumns b)) :
    EndsOnce h.state.db (selectTasks h.state.db condition) := by
  have hstored : ∀ a ∈ selectTasks h.state.db condition,
      ∃ t ∈ h.state.db.tasks, a = selectColumns t := by
    intro a ha
    obtain ⟨t, ht, -, rfl⟩ := mem_selectTasks.mp ha
    exact ⟨t, ht, rfl⟩
  obtain ⟨rows, hrows⟩ := withRecursive_ends (joinSubtasks_born hr) h.made.length
    (selectTasks h.state.db condition) fun b hb => by
      obtain ⟨t, ht, rfl⟩ := hstored b hb
      exact ⟨birth_lt hr ht, Nat.le_add_left ..⟩
  -- each row has one parent, so no chain brings a row a second time
  have hone := joinSubtasks_oneParent hr.stored
  have hnodup : rows.Nodup := by
    refine withRecursive_nodup hone hrows (selectTasks_ids hr.stored _).of_map hstored ?_
    intro a ha b hb
    obtain ⟨s, hs, hsc, rfl⟩ := mem_selectTasks.mp ha
    obtain ⟨t, ht, htc, rfl⟩ := mem_selectTasks.mp hb
    exact hanti s hs t ht hsc htc
  have hsub : ∀ a ∈ rows, ∃ t ∈ h.state.db.tasks, a = selectColumns t := by
    intro a ha
    obtain ⟨b, hb, hchain⟩ := (mem_withRecursive hrows a).mp ha
    exact hone.reach (hstored b hb) hchain
  have hids : RowTable.Unique TreeRow.id rows := by
    refine List.Nodup.map_on ?_ hnodup
    intro a ha b hb heq
    obtain ⟨x, hx, rfl⟩ := hsub a ha
    obtain ⟨y, hy, rfl⟩ := hsub b hb
    rw [selectColumns_inj hr.stored hx hy heq]
  -- every round adds a row, and there are no more rows than tasks
  have hlength : rows.length ≤ h.state.db.tasks.length := by
    have hsubset : rows.map TreeRow.id ⊆ h.state.db.tasks.map Task.id := by
      intro id hid
      obtain ⟨a, ha, rfl⟩ := List.mem_map.mp hid
      obtain ⟨t, ht, rfl⟩ := hsub a ha
      exact List.mem_map_of_mem ht
    have hle := (List.subperm_of_subset hids hsubset).length_le
    rw [List.length_map, List.length_map] at hle
    exact hle
  exact ⟨rows, withRecursive_mono (withRecursive_rounds hrows) hlength, hids⟩

include hr in
/-- No chain leads from a task to one of the same id. -/
theorem not_below_same {a b : Task} (hid : a.id = b.id) :
    ¬ TransGen (Link (joinSubtasks h.state.db)) (selectColumns a) (selectColumns b) := by
  intro hchain
  have hlt : birth h a.id < birth h b.id := (joinSubtasks_born hr).chain hchain
  rw [hid] at hlt
  exact absurd hlt (lt_irrefl _)

include hr in
/-- No chain leads from a task to one of the same parent. -/
theorem not_below_sibling {a b : Task} (ha : a ∈ h.state.db.tasks) {x : String}
    (hax : a.parentTaskId = some x) (hbx : b.parentTaskId = some x) :
    ¬ TransGen (Link (joinSubtasks h.state.db)) (selectColumns a) (selectColumns b) := by
  intro hchain
  have hparent : birth h x < birth h a.id := birth_parent hr ha hax
  obtain ⟨e, hae, heb⟩ := TransGen.tail'_iff.mp hchain
  have hle : birth h a.id ≤ birth h e.id := by
    rcases ReflTransGen.cases_head hae with rfl | ⟨d, hlink, hrest⟩
    · exact le_refl _
    · exact le_of_lt ((joinSubtasks_born hr).chain (TransGen.head' hlink hrest))
  -- the last link is the one from the parent
  obtain ⟨c, -, -, hce, hbc⟩ := link_joinSubtasks.mp heb
  have hcx : c.parentTaskId = some x := by
    have hsame : b.parentTaskId = c.parentTaskId := congrArg TreeRow.parentTaskId hbc
    rw [← hsame, hbx]
  rw [Option.some.inj (hce.symm.trans hcx)] at hle
  omega

include hr in
/-- The three queries. -/
theorem queries_end (query : SubtaskQuery) (taskId workspaceId : String) :
    EndsOnce h.state.db (query.base h.state.db taskId workspaceId) := by
  cases query with
  | tree =>
      refine query_ends hr ?_
      intro a _ b _ hac hbc
      rw [Bool.and_eq_true, Bool.and_eq_true, decide_eq_true_eq] at hac hbc
      exact not_below_same hr (hac.1.1.trans hbc.1.1.symm)
  | descendants =>
      refine query_ends hr ?_
      intro a ha b _ hac hbc
      rw [Bool.and_eq_true, Bool.and_eq_true, decide_eq_true_eq] at hac hbc
      exact not_below_sibling hr ha hac.1.1 hbc.1.1
  | ancestors =>
      refine query_ends hr ?_
      intro a _ b _ hac hbc
      rw [Bool.and_eq_true, decide_eq_true_eq] at hac hbc
      exact not_below_same hr (Option.some.inj (hac.1.symm.trans hbc.1))

end Rooted

/-! ## Every reachable state -/

/-- A platform on which no task has been made yet. -/
structure NoTasks (h : ApiHistory) : Prop where
  tasks : h.state.db.tasks = []
  made : h.made = []
  cache : ∀ k t, h.state.cache k ≠ some (.task t)

theorem NoTasks.rooted {h : ApiHistory} (hn : NoTasks h) : Rooted h where
  ids := by
    rw [hn.made]
    exact List.nodup_nil
  parents := by
    rw [hn.made]
    intro l₁ r l₂ heq
    exact absurd heq (by simp)
  issued := by
    rw [hn.made]
    intro m hm
    exact absurd hm List.not_mem_nil
  stored := by
    rw [hn.tasks]
    exact List.nodup_nil
  rows := by
    rw [hn.tasks]
    intro r hr
    exact absurd hr List.not_mem_nil
  cached := fun k t hkt => absurd hkt (hn.cache k t)

/-- **Calls leave the tasks rooted.** -/
theorem rooted_run (pg : Postgres) (h : ApiHistory) (hn : NoTasks h) (calls : List ApiCall)
    (schedule : List (Nat × Choice)) :
    Rooted (run (historyExec pg) (callPool h calls) schedule).shared := by
  refine (rooted_sound pg).run ?_ (meets_of_forall _ (fun _ _ _ _ _ => trivial) _ _) hn.rooted
  intro p hp
  obtain ⟨c, -, rfl⟩ := List.mem_map.mp hp
  exact call_informed c _

/-- **The hierarchy is a forest.**  Whatever the calls and their steps, no task row is
    below itself, and from every task the three recursive queries end, without a row
    that comes twice. -/
theorem task_forest (pg : Postgres) (h : ApiHistory) (hn : NoTasks h)
    (calls : List ApiCall) (schedule : List (Nat × Choice)) :
    let db := (run (historyExec pg) (callPool h calls) schedule).shared.state.db
    (∀ t, ¬ TransGen (ChildRow db) t t) ∧
      ∀ (query : SubtaskQuery) taskId workspaceId,
        EndsOnce db (query.base db taskId workspaceId) := by
  have hr := rooted_run pg h hn calls schedule
  exact ⟨no_cycle hr, queries_end hr⟩

/-- So no call of the subtask service is given up. -/
theorem hierarchy_answers {h : ApiHistory} (hr : Rooted h) (order : RowOrder)
    (query : SubtaskQuery) (taskId workspaceId : String) :
    hierarchy h.state.db order query taskId workspaceId ≠ .error .queryFailed := by
  obtain ⟨rows, hrows, -⟩ := queries_end hr query taskId workspaceId
  have hcall : ∀ {α : Type} (result : List TreeRow → α),
      ∃ answer, hierarchyQuery order h.state.db.tasks.length h.state.db taskId workspaceId
          (query.base h.state.db taskId workspaceId) result = some answer ∧
        ∀ f : α → Hierarchy, answer.map f ≠ .error .queryFailed := by
    intro α result
    unfold hierarchyQuery
    by_cases hc : taskCheck h.state.db taskId workspaceId = true
    · rw [if_pos hc, hrows]
      exact ⟨_, rfl, fun _ heq => by cases heq⟩
    · rw [if_neg hc]
      exact ⟨_, rfl, fun _ heq => by cases heq⟩
  cases query with
  | tree =>
      obtain ⟨answer, ha, hne⟩ := hcall fun flatTasks => buildTree flatTasks taskId
      have ha' : getTaskTree order _ h.state.db taskId workspaceId = some answer := ha
      simp only [hierarchy, ha']
      exact hne _
  | descendants =>
      obtain ⟨answer, ha, hne⟩ :=
        hcall (List.insertionSort fun a b => a.createdAt ≤ b.createdAt)
      have ha' : getDescendants order _ h.state.db taskId workspaceId = some answer := ha
      simp only [hierarchy, ha']
      exact hne _
  | ancestors =>
      obtain ⟨answer, ha, hne⟩ :=
        hcall (List.insertionSort fun a b => b.createdAt ≤ a.createdAt)
      have ha' : getAncestors order _ h.state.db taskId workspaceId = some answer := ha
      simp only [hierarchy, ha']
      exact hne _

/-- The office, with the ids of its rows. -/
def openOffice : ApiHistory := ⟨office, ["a", "b", "w", "p"], []⟩

/-- A task with a subtask; an update of the task and one of its project, which are
    under way when the project is deleted. -/
def writeBacks : List ApiCall :=
  [.task (.createTask "w" "p" "a" { title := "Plan" }),
    .task (.createTask "w" "p" "b" { title := "Step", parentTaskId := some "1" }),
    .task (.updateTask "1" "w" "a" { title := .val "Draft" }),
    .updateProject "p" "w" "a" (some "Renamed") none none,
    .deleteProject "p" "w" "a"]

/-- A project and a task under it are made, then loaded, deleted and written back. -/
def writeBackTurns : List (Nat × Choice) :=
  [(0, ⟨0, [], "1"⟩), (1, ⟨0, [], "2"⟩)]
    ++ [2, 2, 2, 3, 4, 4, 3, 2].map fun i => (i, ⟨0, [], "3"⟩)

/-- Project and task come back, the subtask does not. -/
theorem task_forest_written_back :
    let db := (run (historyExec plainPostgres) (callPool openOffice writeBacks)
      writeBackTurns).shared.state.db
    db.tasks.map Task.id = ["1"] ∧ (∀ t, ¬ TransGen (ChildRow db) t t) ∧
      ∀ (query : SubtaskQuery) taskId workspaceId,
        EndsOnce db (query.base db taskId workspaceId) :=
  ⟨by decide, task_forest plainPostgres openOffice ⟨rfl, rfl, fun _ _ hhit => by cases hhit⟩
    writeBacks writeBackTurns⟩

end PlatformApi
