import TaskPlatform.CacheTransparency
import TaskPlatform.EventRuns
import TaskPlatform.KanbanBoard
import TaskPlatform.TaskTenancy
import TaskPlatform.VersionedCopies

/-! # One task on several pages

    `handleFieldChange` of `src/frontend/src/components/task/TaskDetailsDrawer.tsx`: every
    keystroke in the drawer is an update of the task, worked out on the task as the page
    shows it and sent with the version of that.  Pages may show any answer that the service
    has given, and requests may come to it at any time later.  Where its calls do not
    overlap this makes no difference: the row is what the accepted edits make of it when
    each of them is done in one go on the row as it is stored (`edits_are_atomic`). -/

namespace PlatformEditing

open AsyncProgram Interleaving PlatformEntities PlatformTasks RowTable VersionedCopies
open PlatformApi (Settled KeysApart findTask_reads getTasks_reads createTask_settles
  updateTask_settles deleteTask_settles)

/-! ## The page -/

/-- A change of one field.  What a text box sends depends on the text that it shows. -/
inductive FieldEdit where
  | title (typed : String → String)
  | description (typed : String → String)
  | status (value : TaskStatus)
  | priority (value : TaskPriority)
  | assignedTo (value : Option String)
  | dueDate (value : Option Nat)

/-- A value or `null`. -/
def nullable {α : Type} : Option α → PlatformTasks.Field α
  | none => .null
  | some a => .val a

/-- `[field]: value`; the box of the description shows `task.description || ''`. -/
def FieldEdit.fields (task : Task) : FieldEdit → UpdateTaskDto
  | .title typed => { title := .val (typed task.title) }
  | .description typed => { description := .val (typed (task.description.getD "")) }
  | .status value => { status := .val value }
  | .priority value => { priority := .val value }
  | .assignedTo value => { assignedTo := nullable value }
  | .dueDate value => { dueDate := nullable value }

/-- The request that a field of the open task sends. -/
def handleFieldChange (task : Task) (e : FieldEdit) : UpdateTaskDto :=
  { e.fields task with version := .val task.version }

/-- A drag on the board is a change of the status. -/
theorem handleDragEnd_edit {tasks : List ListedTask} {active id : String} {st : TaskStatus}
    {dto : UpdateTaskDto}
    (h : PlatformBoard.handleDragEnd tasks active (some st) = some (id, dto)) :
    ∃ card ∈ tasks, card.row.id = id ∧ dto = handleFieldChange card.row (.status st) := by
  obtain ⟨card, hcard, rfl, rfl⟩ := PlatformBoard.handleDragEnd_some h
  have hid : decide (card.row.id = id) = true :=
    List.find?_some (p := fun t : ListedTask => decide (t.row.id = id)) hcard
  exact ⟨card, List.mem_of_find?_eq_some hcard, of_decide_eq_true hid, rfl⟩

/-! ## Pages and service -/

/-- What is done to a task. -/
inductive Change where
  | edit (e : FieldEdit)
  | update (dto : UpdateTaskDto)
  | delete

/-- The change that a call asks for. -/
def Change.ofCall (id workspaceId : String) : TaskCall → Option Change
  | .updateTask id' w _ dto =>
      if id' = id ∧ w = workspaceId then some (.update dto) else none
  | .deleteTask id' w _ => if id' = id ∧ w = workspaceId then some .delete else none
  | _ => none

/-- The rows of the task in the answer to a call that reads. -/
def rowsShown (id : String) : TaskCall → Except HttpError TaskReply → List Task
  | .findById _ _, .ok (.found task) => if task.row.id = id then [task.row] else []
  | .getTasks _ _ _, .ok (.listed (.tasks page)) =>
      (page.items.map ListedTask.row).filter fun t => t.id = id
  | _, _ => []

/-- The service, the rows of the task that it has answered with, and the changes that it
    has been asked for, with its answers. -/
structure EditingWorld where
  server : TaskState
  answers : List Task
  served : List (Change × Except HttpError TaskReply)

/-- What may happen next to the task that is edited. -/
inductive EditingEvent where
  /-- A request arrives that was made on a page which showed the `n`-th answer. -/
  | edit (n : Nat) (userId : String) (e : FieldEdit) (ω : Nat → Choice)
  /-- Any other call, from a page or not. -/
  | call (c : TaskCall) (ω : Nat → Choice)

/-- One event; the answers that pages show are kept. -/
def editingStep (pg : PostgresText) (id workspaceId : String) (world : EditingWorld) :
    EditingEvent → EditingWorld
  | .edit n userId e ω =>
      match world.answers[n]? with
      | none => world
      | some task =>
          let out := solo (exec pg) ω
            (updateTask id workspaceId userId (handleFieldChange task e)) world.server
          ⟨out.1, world.answers, world.served ++ [(.edit e, out.2)]⟩
  | .call c ω =>
      let out := solo (exec pg) ω c.prog world.server
      ⟨out.1, world.answers ++ rowsShown id c out.2,
        world.served ++ ((Change.ofCall id workspaceId c).toList.map fun x => (x, out.2))⟩

/-- After these events, from the state `s` with the task `r`. -/
def edited (pg : PostgresText) (s : TaskState) (r : Task) (events : List EditingEvent) :
    EditingWorld :=
  EventRuns.play (editingStep pg r.id r.workspaceId) ⟨s, [], []⟩ events

/-! ## Changes in one go -/

/-- The columns of an update: those of the request, but the assignee where the row has
    one. -/
def storedColumns (dto : UpdateTaskDto) (r : Task) (completed : Nat) : Option Task :=
  (requestedColumns dto r completed).map fun row =>
    { row with assignedTo := if r.assignedTo = none then row.assignedTo else r.assignedTo }

/-- The update of a live row, done in one go.  A save that has nothing to write keeps the
    version; that of a task without an assignee always writes. -/
def Updated (dto : UpdateTaskDto) (r r' : Task) : Prop :=
  r.deletedAt = none ∧ ∃ completed now row, storedColumns dto r completed = some row ∧
    r' = if row = r ∧ r.assignedTo ≠ none then r
      else { row with version := r.version + 1, updatedAt := now }

/-- What a change makes of the row as it is stored. -/
def Change.Makes : Change → Task → Task → Prop
  | .edit e, r, r' => Updated (e.fields r) r r'
  | .update dto, r, r' => Updated dto r r'
  | .delete, r, r' => r.deletedAt = none ∧ ∃ now, r' = markDeleted now r

/-- The answer is the conflict of the versions. -/
def IsLockConflict (e : HttpError) : Prop := e = .conflict lockMessage

section Rows

variable {dto : UpdateTaskDto} {r r' : Task}

theorem storedColumns_some {row : Task} {completed : Nat}
    (h : storedColumns dto r completed = some row) :
    SameIdentity row r ∧ row.version = r.version ∧ row.updatedAt = r.updatedAt := by
  obtain ⟨x, hx, rfl⟩ := Option.map_eq_some_iff.mp h
  unfold requestedColumns at hx
  split at hx
  · cases hx
    exact ⟨⟨rfl, rfl, rfl, rfl, rfl⟩, rfl, rfl⟩
  · cases hx

theorem Updated.identity (h : Updated dto r r') : SameIdentity r' r := by
  obtain ⟨-, completed, now, row, hrow, rfl⟩ := h
  by_cases hsame : row = r ∧ r.assignedTo ≠ none
  · rw [if_pos hsame]
    exact SameIdentity.refl r
  · rw [if_neg hsame]
    have hid := (storedColumns_some hrow).1
    exact ⟨hid.id, hid.workspaceId, hid.projectId, hid.parentTaskId, hid.createdAt⟩

/-- A row that changes gets the next version. -/
theorem Updated.rises (h : Updated dto r r') : r' = r ∨ r.version < r'.version := by
  obtain ⟨-, completed, now, row, hrow, rfl⟩ := h
  by_cases hsame : row = r ∧ r.assignedTo ≠ none
  · exact Or.inl (if_pos hsame)
  · right
    rw [if_neg hsame]
    exact Nat.lt_succ_self r.version

theorem Change.Makes.identity {change : Change} (h : change.Makes r r') :
    SameIdentity r' r := by
  cases change with
  | edit e => exact Updated.identity h
  | update dto => exact Updated.identity h
  | delete =>
      obtain ⟨-, now, rfl⟩ := h
      exact markDeleted_identity now r

theorem Change.Makes.rises {change : Change} (h : change.Makes r r') :
    r' = r ∨ r.version < r'.version := by
  cases change with
  | edit e => exact Updated.rises h
  | update dto => exact Updated.rises h
  | delete =>
      obtain ⟨-, now, rfl⟩ := h
      exact Or.inr (Nat.lt_succ_self r.version)

end Rows

/-! ## The service -/

section Service

variable {pg : PostgresText} {Q : String → String → QueryTaskDto → Prop} {s : TaskState}
  {r : Task}

/-- The assignee of the row is stored. -/
def Assigned (db : Database) (r : Task) : Prop :=
  ∀ x, r.assignedTo = some x → ∃ u ∈ db.users, u.id = x

theorem findOneTask_stored (hids : Unique Task.id s.db.tasks) (hr : r ∈ s.db.tasks) :
    findOneTask s.db r.id r.workspaceId
      = if r.deletedAt = none then some (loadTask s.db r) else none := by
  cases h : findOneTask s.db r.id r.workspaceId with
  | none =>
      by_cases hlive : r.deletedAt = none
      · exact absurd h (findOneTask_isSome hr rfl rfl hlive)
      · rw [if_neg hlive]
  | some t =>
      obtain ⟨ht, hmem, hid, -, hlive⟩ := findOneTask_some h
      have hrow : t.row = r := hids.eq_of_key hmem hr hid
      rw [hrow] at ht hlive
      rw [if_pos hlive, ht]

/-- The save of an update does the update. -/
theorem saved_updated {db db' : Database} (hids : Unique Task.id db.tasks) (hr : r ∈ db.tasks)
    (hlive : r.deletedAt = none) (hassigned : Assigned db r) {dto : UpdateTaskDto}
    {completed now : Nat}
    (h : Saved db now (applyDto (loadTask db r) dto (completedAfter dto r completed)) db') :
    ∃ r', Updated dto r r' ∧ Assigned db r' ∧ db'.tasks = replace Task.id r' db.tasks := by
  have hstored : lookup Task.id r.id db.tasks = some r := lookup_eq_some hids hr rfl
  have hrow : (applyDto (loadTask db r) dto (completedAfter dto r completed)).toRow (some r)
      = storedColumns dto r completed := applyDto_toRow hassigned dto completed
  have hloaded := loadTask_assignee hassigned
  cases h with
  | unchanged row stored wanted nothing =>
      have hsame : row = r :=
        Option.some.inj (stored.symm.trans ((toRow_some wanted).1.id ▸ hstored))
      subst hsame
      rw [hrow] at wanted
      have hassignee : row.assignedTo ≠ none :=
        fun hnone => nothing (Or.inl (hloaded.mpr hnone))
      exact ⟨row, ⟨hlive, completed, now, row, wanted, (if_pos ⟨rfl, hassignee⟩).symm⟩,
        hassigned, (replace_self hids hr).symm⟩
  | inserted new wanted gone keys =>
      have hid : new.id = r.id := (toRow_some wanted).1.id
      rw [hid, hstored] at gone
      cases gone
  | updated old new wanted stored writes keys =>
      have hold : old = r :=
        Option.some.inj (stored.symm.trans ((toRow_some wanted).1.id ▸ hstored))
      subst hold
      rw [hrow] at wanted
      obtain ⟨hsame, hversion, htime⟩ := storedColumns_some wanted
      have hwrites : ¬ (new = old ∧ old.assignedTo ≠ none) := by
        rintro ⟨heq, hassignee⟩
        exact writes.elim (fun h => hassignee (hloaded.mp h)) (fun h => h heq)
      refine ⟨updateRow now old new,
        ⟨hlive, completed, now, new, wanted, ?_⟩, ?_, rfl⟩
      · rw [if_neg hwrites, updateRow, if_pos hversion, if_pos htime]
      · exact (foreignKeysHold_iff.mp keys).2.2.2.1

/-- After the save nothing is refused but a query. -/
theorem notification_fails (u ty ti m : String) (s : TaskState) :
    Ensures (exec pg) (fun out _ => ∀ e, out = .error e → e = .queryFailed)
      (createAndSendNotification u ty ti m) s := by
  simp only [createAndSendNotification, Prog.perform_bind]
  intro ω
  rcases exec_notification_cases pg ω u ty ti m s with ⟨-, h⟩ | ⟨-, h⟩
  · rw [h]
    intro e he
    cases he
    rfl
  · rw [h]
    intro ω₁ ω₂ ω₃ e he
    cases he

theorem announceUpdate_fails (id w u : String) (t : TaskEntity) (completed changed : Bool)
    (s : TaskState) :
    Ensures (exec pg) (fun out _ => ∀ e, out = .error e → e = .queryFailed)
      (announceUpdate id w u t completed changed) s := by
  have hdone : ∀ s', Ensures (exec pg)
      (fun (out : Except HttpError Unit) _ => ∀ e, out = .error e → e = .queryFailed)
      (.done ()) s' := fun _ e he => by cases he
  have hnotify : ∀ (u ty ti m : String) (s' : TaskState), Ensures (exec pg)
      (fun (out : Except HttpError Unit) _ => ∀ e, out = .error e → e = .queryFailed)
      (createAndSendNotification u ty ti m >>= fun _ => .done ()) s' := by
    intro u ty ti m s'
    rw [ensures_bind]
    refine (notification_fails u ty ti m s').mono ?_
    rintro (e | n) s'' h
    · intro e' he
      cases he
      exact h e rfl
    · exact hdone s''
  unfold announceUpdate
  cases completed with
  | true =>
      simp only [if_true]
      intro ω
      by_cases hc : t.row.createdBy ≠ u
      · simp only [if_pos hc]
        exact hnotify _ _ _ _ _
      · simp only [if_neg hc]
        exact hdone _
  | false =>
      simp only [Bool.false_eq_true, if_false]
      cases changed with
      | false => exact fun ω => hdone _
      | true =>
          cases truthy t.row.assignedTo with
          | none => exact fun ω => hdone _
          | some a => exact fun ω => hnotify _ _ _ _ _

/-- After the save nothing is refused but a query. -/
theorem afterSave_fails (id w u : String) (dto : UpdateTaskDto) (t : LoadedTask)
    (saved : TaskEntity) (s : TaskState) :
    Ensures (exec pg) (fun out _ => ∀ e, out = .error e → e = .queryFailed)
      (afterSave id w u dto t saved) s := by
  intro ω₁ ω₂ ω₃
  show Ensures _ _ (announceUpdate id w u saved _ _ >>= _) _
  rw [ensures_bind]
  refine (announceUpdate_fails id w u saved _ _ _).mono ?_
  rintro (e | n) s' h
  · intro e' he
    cases he
    exact h e rfl
  · intro ω e' he
    cases he

/-- The outcome of a change for the row. -/
def Served (change : Change) (r : Task) (s : TaskState) (out : Except HttpError TaskReply)
    (s' : TaskState) : Prop :=
  (∃ r', change.Makes r r' ∧ Assigned s.db r' ∧
    s'.db.tasks = replace Task.id r' s.db.tasks ∧
      ∀ e, out = .error e → ¬ IsLockConflict e) ∨
    (∃ e, out = .error e) ∧ s'.db.tasks = s.db.tasks

theorem versionMismatch_iff {version : PlatformTasks.Field Int} {current : Nat} :
    versionMismatch version current = true ↔
      version ≠ .undefined ∧ version ≠ .val (current : Int) := by
  cases version with
  | undefined => simp [versionMismatch]
  | null => simp [versionMismatch]
  | val v =>
      have h : ((current : Int) ≠ v) ↔ v ≠ current := ne_comm
      simp [versionMismatch, h]

/-- **An update of the row.**  It is done in one go, where it sends no other version. -/
theorem updateTask_served (hT : Settled pg Q s) (hr : r ∈ s.db.tasks)
    (hassigned : Assigned s.db r) (u : String) (dto : UpdateTaskDto) :
    Ensures (exec pg) (fun out s' => Served (.update dto) r s out s' ∧
        (versionMismatch dto.version r.version = true →
          (∃ e, out = .error e) ∧ s'.db.tasks = s.db.tasks))
      (updateTask r.id r.workspaceId u dto) s := by
  have hids := hT.tables.taskIds
  show Ensures _ _ (PlatformTasks.findById r.id r.workspaceId >>= updateLoaded _ _ u dto) s
  rw [ensures_bind]
  refine (findTask_reads hT r.id r.workspaceId).mono ?_
  rintro out s₁ ⟨-, hdb, rfl⟩
  rw [findOneTask_stored hids hr]
  by_cases hlive : r.deletedAt = none
  · rw [if_pos hlive]
    show Ensures _ _ (updateLoaded r.id r.workspaceId u dto (loadTask s.db r)) s₁
    unfold updateLoaded
    by_cases hversion : versionMismatch dto.version r.version = true
    · have hrow : versionMismatch dto.version (loadTask s.db r).row.version = true := hversion
      rw [if_pos hrow]
      have htasks : s₁.db.tasks = s.db.tasks := congrArg Database.tasks hdb
      exact ⟨Or.inr ⟨⟨_, rfl⟩, htasks⟩, fun _ => ⟨⟨_, rfl⟩, htasks⟩⟩
    · have hrow : ¬ versionMismatch dto.version (loadTask s.db r).row.version = true := hversion
      rw [if_neg hrow]
      refine completionTime_ensures ?_
      intro completed s₂ hs₂ hlow hhigh ω
      have hdb₂ : s₂.db = s.db := hs₂.trans hdb
      rcases exec_save_cases pg ω (applyDto (loadTask s.db r) dto
        (completedAfter dto r completed)) s₂ with ⟨err, h⟩ | ⟨db, saved, hsaved, h⟩
      · rw [h]
        exact ⟨Or.inr ⟨⟨err, rfl⟩, congrArg Database.tasks hdb₂⟩,
          fun hother => absurd hother hversion⟩
      · rw [h]
        rw [hdb₂] at hsaved
        obtain ⟨r', hupdated, hassigned', htasks⟩ :=
          saved_updated hids hr hlive hassigned hsaved
        refine ((quiet_ensures pg (afterSave_quiet _ _ _ _ _ _) _).and
          (afterSave_fails _ _ _ _ _ _ _)).mono ?_
        rintro out s' ⟨⟨hkept, -⟩, hfails⟩
        refine ⟨Or.inl ⟨r', hupdated, hassigned', hkept.trans htasks, ?_⟩,
          fun hother => absurd hother hversion⟩
        intro e he hlock
        rw [hlock] at he
        exact HttpError.noConfusion (hfails _ he)
  · rw [if_neg hlive]
    have htasks : s₁.db.tasks = s.db.tasks := congrArg Database.tasks hdb
    exact ⟨Or.inr ⟨⟨_, rfl⟩, htasks⟩, fun _ => ⟨⟨_, rfl⟩, htasks⟩⟩

/-- A deletion of the row. -/
theorem deleteTask_served (hT : Settled pg Q s) (hr : r ∈ s.db.tasks)
    (hassigned : Assigned s.db r) (u : String) :
    Ensures (exec pg) (Served .delete r s) (deleteTask r.id r.workspaceId u) s := by
  have hids := hT.tables.taskIds
  have hstored : lookup Task.id r.id s.db.tasks = some r := lookup_eq_some hids hr rfl
  show Ensures _ _ (PlatformTasks.findById r.id r.workspaceId >>= _) s
  rw [ensures_bind]
  refine (findTask_reads hT r.id r.workspaceId).mono ?_
  rintro out s₁ ⟨-, hdb, rfl⟩
  rw [findOneTask_stored hids hr]
  by_cases hlive : r.deletedAt = none
  · rw [if_pos hlive]
    intro ω ω₁ ω₂ ω₃ ω₄ ω₅ ω₆
    refine Or.inl ⟨markDeleted (s₁.now + ω.elapsed) r, ⟨hlive, _, rfl⟩, hassigned, ?_,
      fun e he => by cases he⟩
    show (softRemoveTask s₁.db (s₁.now + ω.elapsed) r.id).tasks = _
    rw [hdb, softRemoveTask, hstored]
  · rw [if_neg hlive]
    exact Or.inr ⟨⟨_, rfl⟩, congrArg Database.tasks hdb⟩

/-- What a call asks for, it does or does not. -/
theorem call_served (hT : Settled pg Q s) (hr : r ∈ s.db.tasks) (hassigned : Assigned s.db r)
    {c : TaskCall} {change : Change} (hc : Change.ofCall r.id r.workspaceId c = some change) :
    Ensures (exec pg) (Served change r s) c.prog s := by
  cases c with
  | updateTask id w u dto =>
      by_cases hthis : id = r.id ∧ w = r.workspaceId
      · rw [Change.ofCall, if_pos hthis] at hc
        cases hc
        obtain ⟨rfl, rfl⟩ := hthis
        exact (updateTask_served hT hr hassigned u dto).mono fun _ _ h => h.1
      · rw [Change.ofCall, if_neg hthis] at hc
        cases hc
  | deleteTask id w u =>
      by_cases hthis : id = r.id ∧ w = r.workspaceId
      · rw [Change.ofCall, if_pos hthis] at hc
        cases hc
        obtain ⟨rfl, rfl⟩ := hthis
        exact deleteTask_served hT hr hassigned u
      · rw [Change.ofCall, if_neg hthis] at hc
        cases hc
  | createTask w p u dto => cases hc
  | getTasks w p q => cases hc
  | findById id w => cases hc

/-- What a call finds is not the row, if it does not ask for it. -/
theorem found_elsewhere (hids : Unique Task.id s.db.tasks) (hr : r ∈ s.db.tasks)
    {id w : String} (helse : ¬ (id = r.id ∧ w = r.workspaceId)) {t : LoadedTask}
    (h : findOneTask s.db id w = some t) : t.row.id ≠ r.id := by
  obtain ⟨-, hmem, rfl, rfl, -⟩ := findOneTask_some h
  intro hid
  have hrow : t.row = r := hids.eq_of_key hmem hr hid
  exact helse ⟨hid, congrArg Task.workspaceId hrow⟩

theorem mem_of_tasks {s' : TaskState} (hr : r ∈ s.db.tasks)
    (h : s'.db.tasks = s.db.tasks) : r ∈ s'.db.tasks := h.symm ▸ hr

/-- A call that asks for no change of the row leaves it alone. -/
theorem call_elsewhere (hQ : KeysApart Q) (hT : Settled pg Q s) (hr : r ∈ s.db.tasks)
    {c : TaskCall} (hasked : ∀ w p q, c = .getTasks w p q → Q w p q)
    (hc : Change.ofCall r.id r.workspaceId c = none) :
    Ensures (exec pg) (fun _ s' => r ∈ s'.db.tasks) c.prog s := by
  have hids := hT.tables.taskIds
  cases c with
  | createTask w p u dto =>
      intro ω
      rcases exec_insert_cases pg ω _ s with ⟨e, h⟩ | ⟨db, row, hins, h⟩
      · rw [h]
        exact hr
      · obtain ⟨-, -, rfl, -, -⟩ := insertTask_ok hins
        rw [h]
        refine (quiet_ensures pg ?_ _).mono fun _ _ hkept => ?_
        · exact ⟨trivial, fun _ => ⟨trivial, fun _ => ⟨trivial, fun _ => ⟨trivial, fun _ =>
            (notifyAssignee_quiet dto).bind fun _ => trivial⟩⟩⟩⟩
        · rw [hkept.1]
          exact List.mem_append_left _ hr
  | getTasks w p q =>
      refine (getTasks_reads hQ hT (hasked w p q rfl)).mono ?_
      rintro out s' ⟨-, hdb, -⟩
      exact mem_of_tasks hr (congrArg Database.tasks hdb)
  | findById id w =>
      show Ensures _ _ (PlatformTasks.findById id w >>= _) s
      rw [ensures_bind]
      refine (findTask_reads hT id w).mono ?_
      rintro (e | t) s' ⟨-, hdb, -⟩
      · exact mem_of_tasks hr (congrArg Database.tasks hdb)
      · exact mem_of_tasks hr (congrArg Database.tasks hdb)
  | updateTask id w u dto =>
      have helse : ¬ (id = r.id ∧ w = r.workspaceId) := by
        intro hthis
        rw [Change.ofCall, if_pos hthis] at hc
        cases hc
      show Ensures _ _ (PlatformTasks.findById id w >>= updateLoaded id w u dto) s
      rw [ensures_bind]
      refine (findTask_reads hT id w).mono ?_
      rintro out s₁ ⟨-, hdb, rfl⟩
      have hr₁ : r ∈ s₁.db.tasks := mem_of_tasks hr (congrArg Database.tasks hdb)
      cases hfound : findOneTask s.db id w with
      | none => exact hr₁
      | some t =>
          have hne := found_elsewhere hids hr helse hfound
          show Ensures _ _ (updateLoaded id w u dto t) s₁
          unfold updateLoaded
          by_cases hversion : versionMismatch dto.version t.row.version = true
          · rw [if_pos hversion]
            exact hr₁
          · rw [if_neg hversion, ensures_bind]
            refine (quiet_ensures pg (completionTime_quiet dto t) s₁).mono ?_
            rintro (e | completed) s₂ ⟨htasks₂, -⟩
            · exact mem_of_tasks hr₁ htasks₂
            · intro ω
              have hr₂ : r ∈ s₂.db.tasks := mem_of_tasks hr₁ htasks₂
              rcases exec_save_cases pg ω (applyDto t dto completed) s₂ with
                ⟨err, h⟩ | ⟨db, saved, hsaved, h⟩
              · rw [h]
                exact hr₂
              · rw [h]
                refine (quiet_ensures pg (afterSave_quiet _ _ _ _ _ _) _).mono
                  fun _ _ hkept => ?_
                rw [hkept.1]
                -- the row that is written is that of the task found
                cases hsaved with
                | unchanged row stored wanted nothing => exact hr₂
                | inserted new wanted gone keys => exact List.mem_append_left _ hr₂
                | updated old new wanted stored writes keys =>
                    have hnew : new.id = t.row.id := (toRow_some wanted).1.id
                    have hother : r.id ≠ new.id := fun h => hne (hnew.symm.trans h.symm)
                    exact mem_replace.mpr (Or.inr ⟨hr₂, hother⟩)
  | deleteTask id w u =>
      have helse : ¬ (id = r.id ∧ w = r.workspaceId) := by
        intro hthis
        rw [Change.ofCall, if_pos hthis] at hc
        cases hc
      show Ensures _ _ (PlatformTasks.findById id w >>= _) s
      rw [ensures_bind]
      refine (findTask_reads hT id w).mono ?_
      rintro out s₁ ⟨-, hdb, rfl⟩
      have hr₁ : r ∈ s₁.db.tasks := mem_of_tasks hr (congrArg Database.tasks hdb)
      cases hfound : findOneTask s.db id w with
      | none => exact hr₁
      | some t =>
          have hne := found_elsewhere hids hr helse hfound
          intro ω ω₁ ω₂ ω₃ ω₄ ω₅ ω₆
          show r ∈ (softRemoveTask s₁.db (s₁.now + ω.elapsed) t.row.id).tasks
          rcases softRemoveTask_cases s₁.db (s₁.now + ω.elapsed) t.row.id with
            ⟨-, h⟩ | ⟨row, hrow, h⟩
          · rw [h]
            exact hr₁
          · rw [h]
            have hother : r.id ≠ (markDeleted (s₁.now + ω.elapsed) row).id :=
              fun h => hne (((lookup_mem hrow).2).symm.trans h.symm)
            exact mem_replace.mpr (Or.inr ⟨hr₁, hother⟩)

/-- Every call leaves a cache of right answers. -/
theorem call_settles (hQ : KeysApart Q) (hT : Settled pg Q s) {c : TaskCall}
    (hasked : ∀ w p q, c = .getTasks w p q → Q w p q) :
    Ensures (exec pg) (fun _ s' => Settled pg Q s') c.prog s := by
  cases c with
  | createTask w p u dto => exact createTask_settles hT w p u dto
  | getTasks w p q => exact (getTasks_reads hQ hT (hasked w p q rfl)).mono fun _ _ h => h.1
  | findById id w =>
      show Ensures _ _ (PlatformTasks.findById id w >>= _) s
      rw [ensures_bind]
      refine (findTask_reads hT id w).mono ?_
      rintro (e | t) s' ⟨hT', -, -⟩
      · exact hT'
      · exact hT'
  | updateTask id w u dto => exact updateTask_settles hT id w u dto
  | deleteTask id w u => exact deleteTask_settles hT id w u

/-- The rows that a call shows are the row as it is stored. -/
theorem call_shows (hQ : KeysApart Q) (hT : Settled pg Q s) (hr : r ∈ s.db.tasks)
    {c : TaskCall} (hasked : ∀ w p q, c = .getTasks w p q → Q w p q) :
    Ensures (exec pg) (fun out _ => ∀ t ∈ rowsShown r.id c out, t = r) c.prog s := by
  have hids := hT.tables.taskIds
  -- the other calls show nothing
  have hnothing : (∀ out, rowsShown r.id c out = []) →
      Ensures (exec pg) (fun out _ => ∀ t ∈ rowsShown r.id c out, t = r) c.prog s := by
    intro hnone
    refine (PlatformBoard.users_ensures pg c.prog s).mono fun out _ _ => ?_
    rw [hnone]
    exact fun t ht => absurd ht List.not_mem_nil
  cases c with
  | createTask w p u dto => exact hnothing fun out => rfl
  | updateTask id w u dto => exact hnothing fun out => rfl
  | deleteTask id w u => exact hnothing fun out => rfl
  | getTasks w p q =>
      refine (getTasks_reads hQ hT (hasked w p q rfl)).mono ?_
      rintro out s' ⟨-, -, rfl⟩ t ht
      obtain ⟨hmem, hid⟩ := List.mem_filter.mp ht
      obtain ⟨item, hitem, rfl⟩ := List.mem_map.mp hmem
      exact hids.eq_of_key (mem_listTasks pg hitem).1 hr (of_decide_eq_true hid)
  | findById id w =>
      show Ensures _ _ (PlatformTasks.findById id w >>= _) s
      rw [ensures_bind]
      refine (findTask_reads hT id w).mono ?_
      rintro (e | found) s' ⟨-, -, hout⟩
      · exact fun t ht => absurd ht List.not_mem_nil
      · intro t ht
        cases hfound : findOneTask s.db id w with
        | none =>
            rw [hfound] at hout
            cases hout
        | some task =>
            rw [hfound] at hout
            cases hout
            have ht' : t ∈ if found.row.id = r.id then [found.row] else [] := ht
            by_cases hid : found.row.id = r.id
            · rw [if_pos hid, List.mem_singleton] at ht'
              rw [ht']
              exact hids.eq_of_key (findOneTask_some hfound).2.1 hr hid
            · rw [if_neg hid] at ht'
              exact absurd ht' List.not_mem_nil

end Service

/-! ## Runs -/

section Runs

variable {pg : PostgresText} {Q : String → String → QueryTaskDto → Prop} {r₀ r : Task}
  {world : EditingWorld}

/-- The list queries of a call are of the kind `Q`. -/
def Asks (Q : String → String → QueryTaskDto → Prop) : EditingEvent → Prop
  | .call (.getTasks w p q) _ => Q w p q
  | _ => True

/-- The service stores the row that the log leads to, and pages show copies of it. -/
structure InStep (pg : PostgresText) (Q : String → String → QueryTaskDto → Prop) (r₀ : Task)
    (world : EditingWorld) (r : Task) : Prop where
  settled : Settled pg Q world.server
  stored : r ∈ world.server.db.tasks
  assigned : Assigned world.server.db r
  copies : Copies Task.version world.answers r
  replays : Replays Change.Makes IsLockConflict r₀ world.served r

theorem InStep.identity (h : InStep pg Q r₀ world r) : SameIdentity r r₀ :=
  h.replays.keeps (I := fun d => SameIdentity d r₀)
    (fun _ _ _ hmakes hd => (Change.Makes.identity hmakes).trans hd) (SameIdentity.refl r₀)

theorem asks_call {c : TaskCall} {ω : Nat → Choice} (h : Asks Q (.call c ω)) :
    ∀ w p q, c = .getTasks w p q → Q w p q := by
  rintro w p q rfl
  exact h

/-- What a served change leaves. -/
theorem InStep.served (h : InStep pg Q r₀ world r) {change : Change} {s' : TaskState}
    {out : Except HttpError TaskReply} (hserved : Served change r world.server out s')
    (hsettled : Settled pg Q s') (husers : s'.db.users = world.server.db.users) :
    ∃ r', InStep pg Q r₀ ⟨s', world.answers, world.served ++ [(change, out)]⟩ r' := by
  have hassigned : ∀ t, Assigned world.server.db t → Assigned s'.db t := by
    intro t ht x hx
    obtain ⟨u, hu, hid⟩ := ht x hx
    exact ⟨u, husers.symm ▸ hu, hid⟩
  rcases hserved with ⟨r', hmakes, hassigned', htasks, hanswer⟩ | ⟨⟨e, rfl⟩, htasks⟩
  · have hid : r'.id = r.id := hmakes.identity.id
    refine ⟨r', hsettled, ?_, hassigned r' hassigned', ?_, .made h.replays hmakes hanswer⟩
    · rw [htasks]
      exact mem_replace.mpr (Or.inl ⟨rfl, r, h.stored, hid.symm⟩)
    · rcases hmakes.rises with rfl | hrise
      · exact h.copies
      · exact h.copies.changed hrise
  · exact ⟨r, hsettled, mem_of_tasks h.stored htasks, hassigned r h.assigned, h.copies,
      .thrown h.replays⟩

/-- **One event.** -/
theorem InStep.step (hQ : KeysApart Q) (h : InStep pg Q r₀ world r) {e : EditingEvent}
    (hasks : Asks Q e) :
    ∃ r', InStep pg Q r₀ (editingStep pg r₀.id r₀.workspaceId world e) r' := by
  have : Nonempty Choice := ⟨{}⟩
  have hid := h.identity
  rw [← hid.id, ← hid.workspaceId]
  cases e with
  | edit n u e ω =>
      cases hshown : world.answers[n]? with
      | none =>
          have hsame : editingStep pg r.id r.workspaceId world (.edit n u e ω) = world := by
            rw [editingStep, hshown]
          rw [hsame]
          exact ⟨r, h⟩
      | some task =>
          have hworld : editingStep pg r.id r.workspaceId world (.edit n u e ω)
              = ⟨(solo (exec pg) ω (updateTask r.id r.workspaceId u
                  (handleFieldChange task e)) world.server).1, world.answers,
                world.served ++ [(.edit e, (solo (exec pg) ω (updateTask r.id r.workspaceId u
                  (handleFieldChange task e)) world.server).2)]⟩ := by
            rw [editingStep, hshown]
          rw [hworld]
          obtain ⟨hserved, hother⟩ := (ensures_iff _ _ _).mp (updateTask_served h.settled
            h.stored h.assigned u (handleFieldChange task e)) ω
          have hsettled := (ensures_iff _ _ _).mp
            (updateTask_settles h.settled r.id r.workspaceId u (handleFieldChange task e)) ω
          have husers := (ensures_iff _ _ _).mp (PlatformBoard.users_ensures pg
            (updateTask r.id r.workspaceId u (handleFieldChange task e)) world.server) ω
          refine h.served ?_ hsettled husers
          by_cases hcurrent : task = r
          · -- the page shows the row as it is stored
            subst hcurrent
            exact hserved
          · have hbehind := h.copies.behind (List.mem_of_getElem? hshown) hcurrent
            refine Or.inr (hother (versionMismatch_iff.mpr ⟨?_, ?_⟩))
            · intro hv
              cases hv
            · intro hv
              exact hbehind (Int.ofNat.inj (PlatformTasks.Field.val.inj hv))
  | call c ω =>
      have hsettled := (ensures_iff _ _ _).mp (call_settles hQ h.settled (asks_call hasks)) ω
      have hshows := (ensures_iff _ _ _).mp
        (call_shows hQ h.settled h.stored (asks_call hasks)) ω
      have husers := (ensures_iff _ _ _).mp
        (PlatformBoard.users_ensures pg c.prog world.server) ω
      have hshown : InStep pg Q r₀ ⟨world.server, world.answers ++
          rowsShown r.id c (solo (exec pg) ω c.prog world.server).2, world.served⟩ r :=
        { h with copies := h.copies.taken hshows }
      unfold editingStep
      dsimp only
      cases hc : Change.ofCall r.id r.workspaceId c with
      | none =>
          have hr := (ensures_iff _ _ _).mp
            (call_elsewhere hQ h.settled h.stored (asks_call hasks) hc) ω
          rw [Option.toList_none, List.map_nil, List.append_nil]
          refine ⟨r, hsettled, hr, ?_, hshown.copies, h.replays⟩
          intro x hx
          obtain ⟨u, hu, huid⟩ := h.assigned x hx
          exact ⟨u, husers.symm ▸ hu, huid⟩
      | some change =>
          have hserved := (ensures_iff _ _ _).mp (call_served h.settled h.stored h.assigned hc) ω
          exact hshown.served hserved hsettled husers

theorem InStep.run (hQ : KeysApart Q) (h : InStep pg Q r₀ world r) {events : List EditingEvent}
    (hasks : ∀ e ∈ events, Asks Q e) :
    ∃ r', InStep pg Q r₀
      (EventRuns.play (editingStep pg r₀.id r₀.workspaceId) world events) r' := by
  induction events generalizing world r with
  | nil => exact ⟨r, h⟩
  | cons e rest ih =>
      obtain ⟨r', h'⟩ := h.step hQ (hasks e (List.mem_cons_self ..))
      exact ih h' fun e' he' => hasks e' (List.mem_cons_of_mem _ he')

end Runs

/-- The office with the task "1", before anybody has read it. -/
def drafted : TaskState := { office with db := { office.db with tasks := [planTask] } }

/-- Nothing expires, and no time passes. -/
def still : Nat → Choice := fun _ => {}

/-- Alice and Bob have the task before them; both type, and Bob drags the card when he has
    seen what Alice has typed. -/
def typing : List EditingEvent :=
  [.call (.findById "1" "w") still,
    .edit 0 "a" (.title fun text => text ++ "s") still,
    .edit 0 "b" (.title fun text => text ++ "!") still,
    .call (.getTasks "w" "p" PlatformBoard.boardQuery) still,
    .edit 1 "b" (.status .inProgress) still]

example : (edited plainText drafted planTask typing).server.db.tasks.map
    (fun t => (t.title, t.status, t.version)) = [("Plans", .inProgress, 3)] := by decide +kernel

end PlatformEditing
