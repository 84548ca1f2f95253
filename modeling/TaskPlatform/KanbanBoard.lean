import TaskPlatform.TaskUpdates
import Mathlib.Data.List.Sort

/-! # The board of the web client

    `handleDragEnd` of `src/frontend/src/pages/Tasks.tsx`, whose columns are the four
    statuses, and the `updateTask` that a drag sends.  The board may be any the client has
    read at some time; of the task the cache holds no copy but the stored row.  A drag that
    the server accepts gives the task the status of the column it was dropped on, as the
    next board shows it, and touches no other card; one from a board that is out of date is
    refused (`drag_outcome`). -/

namespace PlatformBoard

open AsyncProgram Interleaving PlatformEntities PlatformTasks RowTable

/-! ## The page -/

/-- `params: {}`, with the defaults that `QueryTaskDto` has on the server. -/
def boardQuery : QueryTaskDto :=
  ⟨some 1, some 10, none, none, none, none, some "createdAt", some .desc⟩

/-- `tasks.find((t) => t.id === taskId)`. -/
def findCard (tasks : List ListedTask) (taskId : String) : Option ListedTask :=
  tasks.find? fun t => t.row.id = taskId

/-- The request of `handleDragEnd`; a card may be dropped beside the columns. -/
def handleDragEnd (tasks : List ListedTask) (active : String) :
    Option TaskStatus → Option (String × UpdateTaskDto)
  | none => none
  | some newStatus =>
      match findCard tasks active with
      | none => none
      | some task =>
          if task.row.status ≠ newStatus then
            some (active, { status := .val newStatus, version := .val task.row.version })
          else none

/-- What a drag sends: the column, and the version of the card as it was shown. -/
theorem handleDragEnd_some {tasks : List ListedTask} {active id : String} {st : TaskStatus}
    {dto : UpdateTaskDto} (h : handleDragEnd tasks active (some st) = some (id, dto)) :
    ∃ card, findCard tasks active = some card ∧ id = active ∧
      dto = { status := .val st, version := .val card.row.version } := by
  unfold handleDragEnd at h
  cases hcard : findCard tasks active with
  | none =>
      rw [hcard] at h
      cases h
  | some card =>
      rw [hcard] at h
      by_cases hne : card.row.status ≠ st
      · dsimp only at h
        rw [if_pos hne] at h
        cases h
        exact ⟨card, rfl, rfl, rfl⟩
      · dsimp only at h
        rw [if_neg hne] at h
        cases h

/-! ## A moved card -/

/-- The row has been moved to the column: apart from what comes with the status it is the
    same. -/
def Moved (st : TaskStatus) (r row : Task) : Prop :=
  ∃ completedAt version updatedAt, row =
    { r with
      status := st
      completedAt := completedAt
      version := version
      updatedAt := updatedAt }

/-- The card with this row in place of its own. -/
def withRow (row : Task) (card : ListedTask) : ListedTask :=
  if card.row.id = row.id then { card with row := row } else card

namespace Moved

variable {st : TaskStatus} {r row : Task}

theorem status (h : Moved st r row) : row.status = st := by
  obtain ⟨c, v, u, rfl⟩ := h
  rfl

theorem id (h : Moved st r row) : row.id = r.id := by
  obtain ⟨c, v, u, rfl⟩ := h
  rfl

theorem inProject (h : Moved st r row) (w p : String) :
    PlatformTasks.inProject w p row = PlatformTasks.inProject w p r := by
  obtain ⟨c, v, u, rfl⟩ := h
  rfl

theorem assignedTo (h : Moved st r row) : row.assignedTo = r.assignedTo := by
  obtain ⟨c, v, u, rfl⟩ := h
  rfl

theorem createdAt (h : Moved st r row) : row.createdAt = r.createdAt := by
  obtain ⟨c, v, u, rfl⟩ := h
  rfl

end Moved

section Pages

variable {st : TaskStatus} {r row : Task}

/-- Overwriting a row, row by row. -/
def overwrite (row t : Task) : Task := if t.id = row.id then row else t

theorem overwrite_cases {l : List Task} (hids : Unique Task.id l) (hr : r ∈ l)
    (hid : row.id = r.id) {t : Task} (ht : t ∈ l) :
    t = r ∧ overwrite row t = row ∨ overwrite row t = t := by
  by_cases h : t.id = row.id
  · exact Or.inl ⟨hids.eq_of_key ht hr (h.trans hid), if_pos h⟩
  · exact Or.inr (if_neg h)

/-- The board has the newest card first. -/
theorem listLe_board (pg : PostgresText) (a b : Task) :
    listLe pg boardQuery a b
      = (decide (b.createdAt ≤ a.createdAt)
          && (!decide (a.createdAt ≤ b.createdAt) || decide (a.id ≤ b.id))) := rfl

/-- A move keeps the time of creation. -/
theorem listLe_overwrite {pg : PostgresText} {l : List Task} (hids : Unique Task.id l)
    (hr : r ∈ l) (hmoved : Moved st r row) {a b : Task} (ha : a ∈ l) (hb : b ∈ l) :
    listLe pg boardQuery a b
      = listLe pg boardQuery (overwrite row a) (overwrite row b) := by
  have hkeys : ∀ t ∈ l, (overwrite row t).createdAt = t.createdAt ∧
      (overwrite row t).id = t.id := by
    intro t ht
    rcases overwrite_cases hids hr hmoved.id ht with ⟨rfl, h⟩ | h
    · rw [h]
      exact ⟨hmoved.createdAt, hmoved.id⟩
    · rw [h]
      exact ⟨rfl, rfl⟩
  obtain ⟨hac, hai⟩ := hkeys a ha
  obtain ⟨hbc, hbi⟩ := hkeys b hb
  rw [listLe_board, listLe_board, hac, hai, hbc, hbi]

/-- **The next board.**  It is the board as it would have been, with the card moved. -/
theorem listTasks_moved {pg : PostgresText} {db db' : Database}
    (hids : Unique Task.id db.tasks) (hr : r ∈ db.tasks) (hmoved : Moved st r row)
    (htasks : db'.tasks = replace Task.id row db.tasks) (husers : db'.users = db.users)
    (w p : String) :
    (listTasks pg db' w p boardQuery).items
      = (listTasks pg db w p boardQuery).items.map (withRow row) := by
  have hfindUser : findUser db' = findUser db := by
    funext id
    rw [findUser, findUser, husers]
  have hall : ∀ l : List Task, l.filter (passesFilters pg boardQuery) = l := by
    intro l
    exact List.filter_eq_self.mpr fun t _ => rfl
  -- the rows of the project
  have hrows : db'.tasks.filter (PlatformTasks.inProject w p)
      = (db.tasks.filter (PlatformTasks.inProject w p)).map (overwrite row) := by
    rw [htasks]
    show (db.tasks.map (overwrite row)).filter _ = _
    rw [List.filter_map]
    refine congrArg (List.map (overwrite row)) (List.filter_congr ?_)
    intro t ht
    rcases overwrite_cases hids hr hmoved.id ht with ⟨rfl, h⟩ | h
    · show PlatformTasks.inProject w p (overwrite row t) = _
      rw [h, hmoved.inProject]
    · show PlatformTasks.inProject w p (overwrite row t) = _
      rw [h]
  have hsorted : ∀ l : List Task, (∀ t ∈ l, t ∈ db.tasks) →
      (l.map (overwrite row)).insertionSort (fun a b => listLe pg boardQuery a b = true)
        = (l.insertionSort fun a b => listLe pg boardQuery a b = true).map
            (overwrite row) := by
    intro l hl
    refine (List.map_insertionSort _ _ (overwrite row) l ?_).symm
    intro a ha b hb
    rw [listLe_overwrite hids hr hmoved (hl a ha) (hl b hb)]
  have hmem : ∀ t ∈ (db.tasks.filter (PlatformTasks.inProject w p)).insertionSort
      (fun a b => listLe pg boardQuery a b = true), t ∈ db.tasks := by
    intro t ht
    have ht' := (List.perm_insertionSort _ _).mem_iff.mp ht
    exact (List.mem_filter.mp ht').1
  unfold listTasks pageOf
  dsimp only
  rw [hall, hall, hrows, hsorted _ fun t ht => (List.mem_filter.mp ht).1, ← List.map_drop,
    ← List.map_take, List.map_map, List.map_map, hfindUser]
  refine List.map_congr_left ?_
  intro t ht
  have htmem := hmem t (List.mem_of_mem_drop (List.mem_of_mem_take ht))
  show (⟨overwrite row t, (overwrite row t).assignedTo.bind (findUser db)⟩ : ListedTask)
    = withRow row ⟨t, t.assignedTo.bind (findUser db)⟩
  unfold withRow
  by_cases h : t.id = row.id
  · have htr : t = r := hids.eq_of_key htmem hr (h.trans hmoved.id)
    have hrow : overwrite row t = row := if_pos h
    rw [hrow, if_pos h, hmoved.assignedTo, htr]
  · have hsame : overwrite row t = t := if_neg h
    rw [hsame, if_neg h]

end Pages

/-! ## A drag -/

/-- The columns that a drag asks for. -/
theorem requestedColumns_drag (st : TaskStatus) (version : PlatformTasks.Field Int) (r : Task)
    (completed : Nat) :
    requestedColumns { status := .val st, version := version } r completed
      = some { r with
          status := st
          completedAt :=
            completedAfter { status := .val st, version := version } r completed } := rfl

/-- A card that leaves its column is done when it has a time of completion. -/
theorem completedAfter_drag {st : TaskStatus} {version : PlatformTasks.Field Int} {r : Task}
    (h : r.status ≠ st) (completed : Nat) :
    completedAfter { status := .val st, version := version } r completed
      = if st = .done then some completed else none := by
  unfold completedAfter
  cases st with
  | done => rw [if_pos ⟨rfl, h⟩, if_pos rfl]
  | todo => rfl
  | inProgress => rfl
  | blocked => rfl

/-- What an accepted drag leaves of the row. -/
structure Dropped (st : TaskStatus) (r row : Task) (start : Nat) : Prop where
  moved : Moved st r row
  /-- Boards that show the card as it was are out of date. -/
  version : r.status ≠ st ∨ r.assignedTo = none → row.version = r.version + 1
  completed : r.status ≠ st → st = .done → ∃ c, row.completedAt = some c ∧ start ≤ c
  reopened : r.status ≠ st → st ≠ .done → row.completedAt = none

/-- The save of a dragged card. -/
theorem saved_dropped {db db' : Database} {r : Task} (hids : Unique Task.id db.tasks)
    (hr : r ∈ db.tasks)
    (hassignee : ∀ x, r.assignedTo = some x → ∃ u ∈ db.users, u.id = x)
    {st : TaskStatus} {version : PlatformTasks.Field Int} {start completed now : Nat}
    (hstart : start ≤ completed)
    (h : Saved db now (applyDto (loadTask db r) { status := .val st, version := version }
      (completedAfter { status := .val st, version := version } r completed)) db') :
    ∃ row, Dropped st r row start ∧ db'.tasks = replace Task.id row db.tasks := by
  have hstored : lookup Task.id r.id db.tasks = some r := lookup_eq_some hids hr rfl
  have hstays : AssigneeStays { status := .val st, version := version } r := Or.inl rfl
  have hrow := applyDto_toRow_of_stays hassignee hstays completed
  rw [requestedColumns_drag] at hrow
  cases h with
  | unchanged row stored wanted nothing =>
      -- the card was in the column already
      have hid : row.id = r.id := (toRow_some wanted).1.id
      rw [hid, hstored] at stored
      cases stored
      rw [hrow] at wanted
      have hstatus : r.status = st := (congrArg Task.status (Option.some.inj wanted)).symm
      refine ⟨r, ⟨⟨r.completedAt, r.version, r.updatedAt, ?_⟩, ?_,
        fun hne => absurd hstatus hne, fun hne => absurd hstatus hne⟩,
        (replace_self hids hr).symm⟩
      · rw [← hstatus]
      · rintro (hne | hnone)
        · exact absurd hstatus hne
        · exact absurd (Or.inl ((loadTask_assignee hassignee).mpr hnone)) nothing
  | inserted new wanted gone keys =>
      have hid : new.id = r.id := (toRow_some wanted).1.id
      rw [hid, hstored] at gone
      cases gone
  | updated old new wanted stored writes keys =>
      have hid : new.id = r.id := (toRow_some wanted).1.id
      rw [hid, hstored] at stored
      cases stored
      rw [hrow] at wanted
      cases wanted
      refine ⟨_, ⟨⟨_, _, _, rfl⟩, fun _ => if_pos rfl, ?_, ?_⟩, rfl⟩
      · intro hne hdone
        refine ⟨completed, ?_, hstart⟩
        exact (completedAfter_drag hne completed).trans (if_pos hdone)
      · intro hne hnot
        exact (completedAfter_drag hne completed).trans (if_neg hnot)

/-- No task call writes the users. -/
theorem users_ensures {β : Type} (pg : PostgresText) (p : TaskProg β) (s : TaskState) :
    Ensures (exec pg) (fun _ s' => s'.db.users = s.db.users) p s := by
  induction p generalizing s with
  | done a => exact rfl
  | fail e => exact rfl
  | await op k ih =>
      intro ω
      exact (ih _ _).mono fun _ _ h => h.trans (exec_static pg ω op s).1

/-- **A drag.**  The card may be dragged on any board that the client has been shown at
    some time, on any live task of which the cache holds no copy but the stored row.  If the
    version of the card shown is not that of the task the drag is refused and no task
    changes.  If it is accepted, the next boards are those of before with this one card in
    its new column, with the next version where there was something to write, and, in the
    last column only, a time of completion. -/
theorem drag_outcome (pg : PostgresText) (s : TaskState)
    (hids : Unique Task.id s.db.tasks) (r : Task) (hr : r ∈ s.db.tasks)
    (hlive : r.deletedAt = none)
    (hassignee : ∀ x, r.assignedTo = some x → ∃ u ∈ s.db.users, u.id = x)
    (hcache : s.cache (getTaskCacheKey r.id) = none ∨
      s.cache (getTaskCacheKey r.id) = some (.task (loadTask s.db r)))
    (userId : String) (shown : List ListedTask) (st : TaskStatus) (id : String)
    (dto : UpdateTaskDto) (hdrag : handleDragEnd shown r.id (some st) = some (id, dto))
    (ω : Nat → Choice) :
    ∃ card, findCard shown r.id = some card ∧
      (card.row.version ≠ r.version →
        (solo (exec pg) ω (updateTask id r.workspaceId userId dto) s).2
            = .error (.conflict lockMessage) ∧
          (solo (exec pg) ω (updateTask id r.workspaceId userId dto) s).1.db.tasks
            = s.db.tasks) ∧
      ∀ reply, (solo (exec pg) ω (updateTask id r.workspaceId userId dto) s).2 = .ok reply →
        card.row.version = r.version ∧
        ∃ row, Dropped st r row s.now ∧
          ∀ w p, (listTasks pg
              (solo (exec pg) ω (updateTask id r.workspaceId userId dto) s).1.db w p
              boardQuery).items
            = (listTasks pg s.db w p boardQuery).items.map (withRow row) := by
  obtain ⟨card, hcard, rfl, rfl⟩ := handleDragEnd_some hdrag
  have : Nonempty Choice := ⟨{}⟩
  have hall : Ensures (exec pg) (fun res s' =>
      (card.row.version ≠ r.version →
        res = .error (.conflict lockMessage) ∧ s'.db.tasks = s.db.tasks) ∧
      ∀ reply, res = .ok reply → card.row.version = r.version ∧
        ∃ row, Dropped st r row s.now ∧ s'.db.tasks = replace Task.id row s.db.tasks)
      (updateTask r.id r.workspaceId userId
        { status := .val st, version := .val card.row.version }) s := by
    refine findById_ensures hids hr hlive hcache ?_
    intro s₁ hs₁ hnow₁
    unfold updateLoaded
    by_cases hversion : card.row.version = r.version
    · have hmatch : ¬ versionMismatch (.val (card.row.version : Int))
          (loadTask s.db r).row.version = true := by
        simp [versionMismatch, loadTask, hversion]
      rw [if_neg hmatch]
      refine completionTime_ensures ?_
      intro completed s₂ hs₂ hlow hhigh ω₂
      have hdb₂ : s₂.db = s.db := hs₂.trans hs₁
      rcases exec_save_cases pg ω₂ (applyDto (loadTask s.db r) _
        (completedAfter _ r completed)) s₂ with ⟨err, h⟩ | ⟨db, saved, hsaved, h⟩
      · rw [h]
        exact ⟨fun hne => absurd hversion hne, fun reply hreply => by cases hreply⟩
      · rw [h]
        rw [hdb₂] at hsaved
        refine (quiet_ensures pg (afterSave_quiet _ _ _ _ _ _) _).mono ?_
        rintro res s' ⟨htasks, -⟩
        obtain ⟨row, hdropped, hreplaced⟩ :=
          saved_dropped hids hr hassignee (hnow₁.trans hlow) hsaved
        exact ⟨fun hne => absurd hversion hne, fun reply _ => ⟨hversion, row, hdropped,
          htasks.trans hreplaced⟩⟩
    · have hmatch : versionMismatch (.val (card.row.version : Int))
          (loadTask s.db r).row.version = true := by
        have hne : (r.version : Int) ≠ (card.row.version : Int) := by omega
        simp [versionMismatch, loadTask, hne]
      rw [if_pos hmatch]
      exact ⟨fun _ => ⟨rfl, congrArg Database.tasks hs₁⟩,
        fun reply hreply => by cases hreply⟩
  obtain ⟨hrefused, haccepted⟩ := (ensures_iff (exec pg) _ s).mp hall ω
  have husers := (ensures_iff (exec pg) _ s).mp (users_ensures pg (updateTask r.id
    r.workspaceId userId { status := .val st, version := .val card.row.version }) s) ω
  refine ⟨card, hcard, hrefused, ?_⟩
  intro reply hreply
  obtain ⟨hversion, row, hdropped, htasks⟩ := haccepted reply hreply
  exact ⟨hversion, row, hdropped, listTasks_moved hids hr hdropped.moved htasks husers⟩

/-- The board of the office, as it is shown first. -/
def officeBoard : List ListedTask := (listTasks plainText staffed.db "w" "p" boardQuery).items

/-- Dragging the only card of the office to IN_PROGRESS. -/
theorem plan_is_dragged :
    ∃ card, findCard officeBoard "1" = some card ∧
      (card.row.version ≠ planTask.version →
        (solo (exec plainText) (fun _ => {}) (updateTask "1" "w" "b"
            { status := .val .inProgress, version := .val 1 }) staffed).2
            = .error (.conflict lockMessage) ∧
          (solo (exec plainText) (fun _ => {}) (updateTask "1" "w" "b"
            { status := .val .inProgress, version := .val 1 }) staffed).1.db.tasks
            = staffed.db.tasks) ∧
      ∀ reply, (solo (exec plainText) (fun _ => {}) (updateTask "1" "w" "b"
            { status := .val .inProgress, version := .val 1 }) staffed).2 = .ok reply →
        card.row.version = planTask.version ∧
        ∃ row, Dropped .inProgress planTask row staffed.now ∧
          ∀ w p, (listTasks plainText
              (solo (exec plainText) (fun _ => {}) (updateTask "1" "w" "b"
                { status := .val .inProgress, version := .val 1 }) staffed).1.db w p
              boardQuery).items
            = (listTasks plainText staffed.db w p boardQuery).items.map (withRow row) :=
  drag_outcome plainText staffed (by decide) planTask (by decide) rfl
    (fun x hx => by cases hx) (Or.inl rfl) "b" officeBoard .inProgress "1" _ rfl (fun _ => {})

end PlatformBoard
