import TaskPlatform.Entities
import Mathlib.Data.List.Sort

/-! # The tasks table behind TypeORM

    What `findOne`, `getManyAndCount`, `save` and `softRemove` of the task
    repository do to the database, and the objects that they take and return.

    `save` of an object whose id is stored writes the columns in which the object
    differs from the row, whether or not the row is soft-deleted, and asks nothing
    about the version; a column that the object does not change keeps the value of
    the row, so the row becomes the object.  The version column counts up with
    every such write unless the object brings another version along.

    The join column `assignedTo` is both a column and the relation `assignee`, and the
    relation goes first.  One that holds a user puts the id of that user into the column.
    One that was loaded as null is taken for changed by every save: the save of an
    unassigned task always writes, and it takes the assignee out of the object that it
    hands back. -/

namespace PlatformTasks

open PlatformEntities RowTable

/-- A task as `findById` loads it: the row with its relations `assignee` and
    `creator`. -/
structure LoadedTask where
  row : Task
  assignee : Option UserView
  creator : Option UserView
  deriving DecidableEq, Repr

/-- A task as a list query loads it, with its assignee. -/
structure ListedTask where
  row : Task
  assignee : Option UserView
  deriving DecidableEq, Repr

/-- A loaded task after `updateTask` has assigned the fields of the request to it:
    title, status and priority may be null now.  The other columns are those of
    `row`. -/
structure TaskEntity where
  row : Task
  title : Option String
  status : Option TaskStatus
  priority : Option TaskPriority
  assignee : Option UserView
  creator : Option UserView
  deriving DecidableEq, Repr

/-- What `createTask` puts into a new object. -/
structure NewTask where
  workspaceId : String
  projectId : String
  title : String
  description : Option String
  parentTaskId : Option String
  priority : TaskPriority
  status : TaskStatus
  assignedTo : Option String
  dueDate : Option Nat
  labels : Option (List String)
  attachments : Option (List Attachment)
  createdBy : String
  deriving DecidableEq, Repr

/-! ## Reading -/

section Reading

variable (db : Database)

/-- A user by the id, as the entity selects it. -/
def findUser (id : String) : Option UserView :=
  (db.users.find? (fun u => u.id = id)).map User.view

/-- A task with its relations. -/
def loadTask (t : Task) : LoadedTask :=
  ⟨t, t.assignedTo.bind (findUser db), findUser db t.createdBy⟩

/-- `findOne({ where: { id, workspaceId }, relations })`: soft-deleted rows are not
    found.  The ids are as the columns spell them; `IdSpelling` has the others. -/
def findOneTask (id workspaceId : String) : Option LoadedTask :=
  (db.tasks.find? (fun t =>
    t.id = id && t.workspaceId = workspaceId && t.deletedAt.isNone)).map (loadTask db)

end Reading

/-! ## Listing -/

/-- The directions of a sort. -/
inductive SortOrder where
  | asc
  | desc
  deriving DecidableEq, Repr

/-- `QueryTaskDto`. -/
structure QueryTaskDto where
  page : Option Nat
  limit : Option Nat
  status : Option String
  priority : Option String
  assignedTo : Option String
  search : Option String
  sortBy : Option String
  sortOrder : Option SortOrder
  deriving DecidableEq, Repr

/-- What `getTasks` returns. -/
structure TaskPage where
  items : List ListedTask
  total : Nat
  page : Nat
  limit : Nat
  totalPages : Nat
  deriving DecidableEq, Repr

/-- The parts of Postgres that depend on its text configuration: the English full
    text match of a document against a search text, and the collation. -/
structure PostgresText where
  search : (document query : String) → Bool
  collate : String → String → Bool

/-- A string that JavaScript takes for true. -/
def truthy : Option String → Option String
  | some s => if s = "" then none else some s
  | none => none

theorem truthy_eq_some {o : Option String} {x : String} :
    truthy o = some x ↔ o = some x ∧ x ≠ "" := by
  cases o with
  | none =>
      constructor
      · intro h
        cases h
      · rintro ⟨h, -⟩
        cases h
  | some y =>
      show (if y = "" then none else some y) = some x ↔ _
      by_cases hy : y = ""
      · rw [if_pos hy]
        constructor
        · intro h
          cases h
        · rintro ⟨h, hx⟩
          exact absurd ((Option.some.inj h).symm.trans hy) hx
      · rw [if_neg hy]
        constructor
        · intro h
          exact ⟨h, Option.some.inj h ▸ hy⟩
        · exact fun h => h.1

/-- `n || d`. -/
def orDefault (n : Option Nat) (d : Nat) : Nat :=
  match n with
  | some 0 => d
  | some n => n
  | none => d

/-- The columns that a list may be sorted by. -/
inductive SortField where
  | createdAt
  | dueDate
  | title
  deriving DecidableEq, Repr

/-- Anything but the three known fields sorts by creation time. -/
def sortField (sortBy : Option String) : SortField :=
  if sortBy = some "dueDate" then .dueDate
  else if sortBy = some "title" then .title
  else .createdAt

/-- Ascending order of one column; a null due date comes last. -/
def SortField.le (pg : PostgresText) : SortField → Task → Task → Bool
  | .createdAt, a, b => a.createdAt ≤ b.createdAt
  | .title, a, b => pg.collate a.title b.title
  | .dueDate, a, b =>
      match a.dueDate, b.dueDate with
      | _, none => true
      | none, some _ => false
      | some x, some y => x ≤ y

/-- The order of a list query: the chosen column in the chosen direction, the
    primary key between equals. -/
def listLe (pg : PostgresText) (query : QueryTaskDto) (a b : Task) : Bool :=
  let le := match query.sortOrder.getD .desc with
    | .asc => fun x y => (sortField query.sortBy).le pg x y
    | .desc => fun x y => (sortField query.sortBy).le pg y x
  le a b && (!le b a || a.id ≤ b.id)

/-- The live tasks of a project of a workspace. -/
def inProject (workspaceId projectId : String) (t : Task) : Bool :=
  t.workspaceId = workspaceId && t.projectId = projectId && t.deletedAt.isNone

/-- The filters of a list query. -/
def passesFilters (pg : PostgresText) (query : QueryTaskDto) (t : Task) : Bool :=
  (truthy query.status).all (fun x => t.status.text = x)
    && (truthy query.priority).all (fun x => t.priority.text = x)
    && (truthy query.assignedTo).all (fun x => t.assignedTo = some x)
    && (truthy query.search).all
        (fun x => pg.search (t.title ++ " " ++ t.description.getD "") x)

/-- The page of a query over the live tasks of a project. -/
def pageOf (pg : PostgresText) (users : String → Option UserView)
    (query : QueryTaskDto) (rows : List Task) : TaskPage :=
  let matching := rows.filter (passesFilters pg query)
  let sorted := matching.insertionSort (fun a b => listLe pg query a b = true)
  let page := orDefault query.page 1
  let limit := orDefault query.limit 10
  { items := ((sorted.drop ((page - 1) * limit)).take limit).map
      (fun t => ⟨t, t.assignedTo.bind users⟩)
    total := matching.length
    page := page
    limit := limit
    totalPages := (matching.length + limit - 1) / limit }

/-- What the query behind `getTasks` returns. -/
def listTasks (pg : PostgresText) (db : Database) (workspaceId projectId : String)
    (query : QueryTaskDto) : TaskPage :=
  pageOf pg (findUser db) query (db.tasks.filter (inProject workspaceId projectId))

/-! ## Writing -/

/-- Every foreign key of the row names a row. -/
def foreignKeysHold (db : Database) (t : Task) : Bool :=
  db.workspaces.any (fun w => w.id = t.workspaceId)
    && db.projects.any (fun p => p.id = t.projectId)
    && t.parentTaskId.all (fun x => db.tasks.any (fun t' => t'.id = x))
    && t.assignedTo.all (fun x => db.users.any (fun u => u.id = x))
    && db.users.any (fun u => u.id = t.createdBy)

/-- The row of a new object: a generated id, the first version, not deleted. -/
def NewTask.row (n : NewTask) (newId : String) (now : Nat) : Task :=
  { id := newId
    workspaceId := n.workspaceId
    projectId := n.projectId
    parentTaskId := n.parentTaskId
    title := n.title
    description := n.description
    status := n.status
    priority := n.priority
    assignedTo := n.assignedTo
    dueDate := n.dueDate
    createdBy := n.createdBy
    completedAt := none
    labels := n.labels
    attachments := n.attachments
    version := 1
    deletedAt := none
    createdAt := now
    updatedAt := now }

/-- `INSERT` of a new object; an id that is no uuid (here: an empty one), a taken id or
    a foreign key without its row is rejected. -/
def insertTask (db : Database) (newId : String) (now : Nat) (n : NewTask) :
    Except HttpError (Database × Task) :=
  if newId ≠ "" && (lookup Task.id newId db.tasks).isNone
      && foreignKeysHold db (n.row newId now) then
    .ok ({ db with tasks := db.tasks ++ [n.row newId now] }, n.row newId now)
  else
    .error .queryFailed

/-- The join column that a save writes over the row `stored`.  With the relation null,
    the column is written as a column where it differs, and as the null of the relation
    where it does not. -/
def TaskEntity.joinColumn (e : TaskEntity) (stored : Option Task) : Option String :=
  match e.assignee with
  | some u => some u.id
  | none =>
      if stored.any (fun old => old.assignedTo = e.row.assignedTo) then none
      else e.row.assignedTo

/-- The row that a save of the object writes over the row `stored` of its id, if none of
    its NOT NULL columns is null. -/
def TaskEntity.toRow (e : TaskEntity) (stored : Option Task) : Option Task :=
  match e.title, e.status, e.priority with
  | some title, some status, some priority =>
      some { e.row with
        title := title
        status := status
        priority := priority
        assignedTo := e.joinColumn stored
        createdBy :=
          match e.creator with
          | some u => u.id
          | none => e.row.createdBy }
  | _, _, _ => none

/-- What the object holds for its assignee after the save: a relation that was among the
    changes puts its own key there. -/
def TaskEntity.assignedAfter (e : TaskEntity) (stored : Option Task) : Option String :=
  match e.assignee with
  | none => none
  | some u =>
      if stored.any (fun old => old.assignedTo = some u.id) then e.row.assignedTo
      else some u.id

/-- A save of the object over `old` finds something to write: a column of `new` differs,
    or the relation holds null. -/
def TaskEntity.Writes (e : TaskEntity) (old new : Task) : Prop :=
  e.assignee = none ∨ new ≠ old

instance (e : TaskEntity) (old new : Task) : Decidable (e.Writes old new) :=
  inferInstanceAs (Decidable (_ ∨ _))

/-- The row after an `UPDATE` of the columns in which `new` differs. -/
def updateRow (now : Nat) (old new : Task) : Task :=
  { new with
    version := if new.version = old.version then old.version + 1 else new.version
    updatedAt := if new.updatedAt = old.updatedAt then now else new.updatedAt }

/-- `save` of a task object: nothing if there is nothing to write, else an update of its
    row, or an insert if the row is gone.  The object gets the new version and update
    time. -/
def saveTask (db : Database) (now : Nat) (e : TaskEntity) :
    Except HttpError (Database × TaskEntity) :=
  let stored := lookup Task.id e.row.id db.tasks
  match e.toRow stored with
  | none => .error .queryFailed
  | some new =>
      match stored with
      | none =>
          if foreignKeysHold db new then
            .ok ({ db with tasks := db.tasks ++ [new] },
              { e with row := { e.row with assignedTo := e.assignedAfter none } })
          else
            .error .queryFailed
      | some old =>
          if ¬ e.Writes old new then
            .ok (db, e)
          else if foreignKeysHold db new then
            let row := updateRow now old new
            .ok ({ db with tasks := replace Task.id row db.tasks },
              { e with row := { e.row with
                assignedTo := e.assignedAfter (some old)
                version := row.version
                updatedAt := row.updatedAt } })
          else
            .error .queryFailed

/-- The row after a soft deletion. -/
def markDeleted (now : Nat) (t : Task) : Task :=
  { t with deletedAt := some now, version := t.version + 1, updatedAt := now }

/-- `softRemove`: `UPDATE .. SET deletedAt` by id. -/
def softRemoveTask (db : Database) (now : Nat) (id : String) : Database :=
  match lookup Task.id id db.tasks with
  | none => db
  | some t => { db with tasks := replace Task.id (markDeleted now t) db.tasks }

/-! ## What the operations do -/

/-- The columns that no operation changes after the insert. -/
structure SameIdentity (a b : Task) : Prop where
  id : a.id = b.id
  workspaceId : a.workspaceId = b.workspaceId
  projectId : a.projectId = b.projectId
  parentTaskId : a.parentTaskId = b.parentTaskId
  createdAt : a.createdAt = b.createdAt

theorem SameIdentity.refl (a : Task) : SameIdentity a a := ⟨rfl, rfl, rfl, rfl, rfl⟩

theorem SameIdentity.trans {a b c : Task} (h : SameIdentity a b) (h' : SameIdentity b c) :
    SameIdentity a c :=
  ⟨h.id.trans h'.id, h.workspaceId.trans h'.workspaceId, h.projectId.trans h'.projectId,
    h.parentTaskId.trans h'.parentTaskId, h.createdAt.trans h'.createdAt⟩

theorem SameIdentity.symm {a b : Task} (h : SameIdentity a b) : SameIdentity b a :=
  ⟨h.id.symm, h.workspaceId.symm, h.projectId.symm, h.parentTaskId.symm, h.createdAt.symm⟩

theorem updateRow_identity (now : Nat) (old new : Task) :
    SameIdentity (updateRow now old new) new := ⟨rfl, rfl, rfl, rfl, rfl⟩

theorem markDeleted_identity (now : Nat) (t : Task) :
    SameIdentity (markDeleted now t) t := ⟨rfl, rfl, rfl, rfl, rfl⟩

/-- The row of an object keeps identity, version and deletion mark of the object. -/
theorem toRow_some {e : TaskEntity} {stored : Option Task} {new : Task}
    (h : e.toRow stored = some new) :
    SameIdentity new e.row ∧ new.version = e.row.version ∧
      new.deletedAt = e.row.deletedAt := by
  obtain ⟨row, title, status, priority, assignee, creator⟩ := e
  cases title with
  | none => cases h
  | some title =>
      cases status with
      | none => cases h
      | some status =>
          cases priority with
          | none => cases h
          | some priority =>
              have hnew := Option.some.inj h
              subst hnew
              exact ⟨⟨rfl, rfl, rfl, rfl, rfl⟩, rfl, rfl⟩

/-- The join column of the row. -/
theorem toRow_joinColumn {e : TaskEntity} {stored : Option Task} {new : Task}
    (h : e.toRow stored = some new) : new.assignedTo = e.joinColumn stored := by
  obtain ⟨row, title, status, priority, assignee, creator⟩ := e
  cases title with
  | none => cases h
  | some title =>
      cases status with
      | none => cases h
      | some status =>
          cases priority with
          | none => cases h
          | some priority =>
              have hnew := Option.some.inj h
              subst hnew
              rfl

theorem findUser_id {db : Database} {id : String} {u : UserView}
    (h : findUser db id = some u) : u.id = id := by
  obtain ⟨user, huser, rfl⟩ := Option.map_eq_some_iff.mp h
  have hid : user.id = id := by simpa using List.find?_some huser
  exact hid

theorem findUser_ne_none {db : Database} {id : String} (h : ∃ u ∈ db.users, u.id = id) :
    findUser db id ≠ none := by
  obtain ⟨u, hu, hid⟩ := h
  intro hnone
  rw [findUser, Option.map_eq_none_iff] at hnone
  have := List.find?_eq_none.mp hnone u hu
  simp [hid] at this

/-- What `findOne` loads is a live row with its relations. -/
theorem findOneTask_some {db : Database} {id w : String} {t : LoadedTask}
    (h : findOneTask db id w = some t) :
    t = loadTask db t.row ∧ t.row ∈ db.tasks ∧ t.row.id = id ∧ t.row.workspaceId = w ∧
      t.row.deletedAt = none := by
  obtain ⟨r, hr, rfl⟩ := Option.map_eq_some_iff.mp h
  have hp := List.find?_some hr
  simp only [Bool.and_eq_true, decide_eq_true_eq, Option.isNone_iff_eq_none] at hp
  exact ⟨rfl, List.mem_of_find?_eq_some hr, hp.1.1, hp.1.2, hp.2⟩

/-- The items of a page are tasks of the project of the query. -/
theorem mem_listTasks (pg : PostgresText) {db : Database} {w p : String} {q : QueryTaskDto}
    {item : ListedTask} (h : item ∈ (listTasks pg db w p q).items) :
    item.row ∈ db.tasks ∧ inProject w p item.row = true := by
  obtain ⟨t, ht, rfl⟩ := List.mem_map.mp h
  have hsorted := List.mem_of_mem_drop (List.mem_of_mem_take ht)
  have hmem := (List.perm_insertionSort _ _).mem_iff.mp hsorted
  exact List.mem_filter.mp (List.mem_filter.mp hmem).1

theorem listTasks_workspace (pg : PostgresText) {db : Database} {w p : String}
    {q : QueryTaskDto} {item : ListedTask} (h : item ∈ (listTasks pg db w p q).items) :
    item.row.workspaceId = w := by
  have hproject := (mem_listTasks pg h).2
  rw [inProject, Bool.and_eq_true, Bool.and_eq_true, decide_eq_true_eq] at hproject
  exact hproject.1.1

/-- A live row of the workspace is found. -/
theorem findOneTask_isSome {db : Database} {id w : String} {r : Task}
    (hr : r ∈ db.tasks) (hid : r.id = id) (hw : r.workspaceId = w)
    (hlive : r.deletedAt = none) : findOneTask db id w ≠ none := by
  intro h
  rw [findOneTask, Option.map_eq_none_iff] at h
  have := List.find?_eq_none.mp h r hr
  simp [hid, hw, hlive] at this

/-- An insert that goes through adds the row of the new object. -/
theorem insertTask_ok {db db' : Database} {newId : String} {now : Nat} {n : NewTask}
    {row : Task} (h : insertTask db newId now n = .ok (db', row)) :
    lookup Task.id row.id db.tasks = none ∧ foreignKeysHold db row = true ∧
      db' = { db with tasks := db.tasks ++ [row] } ∧ row = n.row newId now ∧
      row.id ≠ "" := by
  unfold insertTask at h
  by_cases hcond : (newId ≠ "" && (lookup Task.id newId db.tasks).isNone
      && foreignKeysHold db (n.row newId now)) = true
  · rw [if_pos hcond] at h
    rw [Bool.and_eq_true, Bool.and_eq_true, Option.isNone_iff_eq_none] at hcond
    obtain ⟨⟨hid, hnew⟩, hfk⟩ := hcond
    injection h with h
    injection h with hdb hrow
    subst hrow
    exact ⟨hnew, hfk, hdb.symm, rfl, of_decide_eq_true hid⟩
  · rw [if_neg hcond] at h
    cases h

/-- What a `save` that goes through does. -/
inductive Saved (db : Database) (now : Nat) (e : TaskEntity) : Database → Prop where
  /-- There is nothing to write. -/
  | unchanged (row : Task) (stored : lookup Task.id row.id db.tasks = some row)
      (wanted : e.toRow (some row) = some row) (nothing : ¬ e.Writes row row) :
      Saved db now e db
  /-- The row was gone. -/
  | inserted (new : Task) (wanted : e.toRow none = some new)
      (gone : lookup Task.id new.id db.tasks = none)
      (keys : foreignKeysHold db new = true) :
      Saved db now e { db with tasks := db.tasks ++ [new] }
  | updated (old new : Task) (wanted : e.toRow (some old) = some new)
      (stored : lookup Task.id new.id db.tasks = some old) (writes : e.Writes old new)
      (keys : foreignKeysHold db new = true) :
      Saved db now e
        { db with tasks := replace Task.id (updateRow now old new) db.tasks }

/-- The object that a save hands back: the one that was given, with the new version and
    update time and the assignee of its relation. -/
structure HandedBack (db : Database) (e saved : TaskEntity) : Prop where
  row : SameIdentity saved.row e.row
  creator : saved.row.createdBy = e.row.createdBy
  /-- With a relation that is null, the assignee is gone from the object. -/
  unassigned : e.assignee = none → saved.row.assignedTo = none
  /-- With the relation of the row, the object keeps what it was given. -/
  assigned : ∀ u, e.assignee = some u →
    (∃ old, lookup Task.id e.row.id db.tasks = some old ∧ old.assignedTo = some u.id) →
      saved.row.assignedTo = e.row.assignedTo
  /-- With a relation that the row does not hold any more, it goes back to that one. -/
  outdated : ∀ u, e.assignee = some u →
    (¬ ∃ old, lookup Task.id e.row.id db.tasks = some old ∧ old.assignedTo = some u.id) →
      saved.row.assignedTo = some u.id

/-- A save that goes through, and what it hands back. -/
theorem saveTask_spec {db db' : Database} {now : Nat} {e saved : TaskEntity}
    (h : saveTask db now e = .ok (db', saved)) :
    Saved db now e db' ∧ HandedBack db e saved := by
  unfold saveTask at h
  cases hold : lookup Task.id e.row.id db.tasks with
  | none =>
      simp only [hold] at h
      cases hrow : e.toRow none with
      | none =>
          rw [hrow] at h
          cases h
      | some new =>
          simp only [hrow] at h
          have hid : new.id = e.row.id := (toRow_some hrow).1.id
          by_cases hfk : foreignKeysHold db new = true
          · rw [if_pos hfk] at h
            cases h
            refine ⟨.inserted new hrow (hid ▸ hold) hfk,
              ⟨rfl, rfl, rfl, rfl, rfl⟩, rfl, ?_, ?_, ?_⟩
            · intro hnone
              simp only [TaskEntity.assignedAfter, hnone]
            · rintro u - ⟨old, hstored, -⟩
              rw [hold] at hstored
              cases hstored
            · intro u hu _
              simp [TaskEntity.assignedAfter, hu]
          · rw [if_neg hfk] at h
            cases h
  | some old =>
      simp only [hold] at h
      cases hrow : e.toRow (some old) with
      | none =>
          rw [hrow] at h
          cases h
      | some new =>
          simp only [hrow] at h
          have hid : new.id = e.row.id := (toRow_some hrow).1.id
          by_cases hwrites : e.Writes old new
          · rw [if_neg (not_not_intro hwrites)] at h
            by_cases hfk : foreignKeysHold db new = true
            · rw [if_pos hfk] at h
              cases h
              refine ⟨.updated old new hrow (hid ▸ hold) hwrites hfk,
                ⟨rfl, rfl, rfl, rfl, rfl⟩, rfl, ?_, ?_, ?_⟩
              · intro hnone
                simp only [TaskEntity.assignedAfter, hnone]
              · rintro u hu ⟨old', hstored, hsame⟩
                rw [hold] at hstored
                cases hstored
                simp only [TaskEntity.assignedAfter, hu, Option.any_some, hsame,
                  decide_true, if_true]
              · intro u hu houtdated
                have hother : old.assignedTo ≠ some u.id := fun h => houtdated ⟨old, hold, h⟩
                simp [TaskEntity.assignedAfter, hu, hother]
            · rw [if_neg hfk] at h
              cases h
          · rw [if_pos hwrites] at h
            cases h
            have heq : new = old := by
              by_contra hne
              exact hwrites (Or.inr hne)
            subst heq
            refine ⟨.unchanged new (hid ▸ hold) hrow hwrites, SameIdentity.refl _, rfl,
              ?_, ?_, ?_⟩
            · exact fun hnone => absurd (Or.inl hnone) hwrites
            · exact fun _ _ _ => rfl
            · intro u hu houtdated
              have hjoin := toRow_joinColumn hrow
              rw [TaskEntity.joinColumn, hu] at hjoin
              exact absurd ⟨new, hold, hjoin⟩ houtdated

theorem saveTask_ok {db db' : Database} {now : Nat} {e saved : TaskEntity}
    (h : saveTask db now e = .ok (db', saved)) : Saved db now e db' :=
  (saveTask_spec h).1

theorem saveTask_returns {db db' : Database} {now : Nat} {e saved : TaskEntity}
    (h : saveTask db now e = .ok (db', saved)) : SameIdentity saved.row e.row :=
  (saveTask_spec h).2.row

/-- Where there is something to write and the constraints hold, the save overwrites the
    row. -/
theorem saveTask_updates {db : Database} (now : Nat) {e : TaskEntity} {old new : Task}
    (hold : lookup Task.id e.row.id db.tasks = some old) (hnew : e.toRow (some old) = some new)
    (hwrites : e.Writes old new) (hfk : foreignKeysHold db new = true) :
    ∃ saved, saveTask db now e = .ok
      ({ db with tasks := replace Task.id (updateRow now old new) db.tasks }, saved) := by
  simp only [saveTask, hold, hnew, if_neg (not_not_intro hwrites), if_pos hfk]
  exact ⟨_, rfl⟩

/-- The tasks after a `softRemove`. -/
theorem softRemoveTask_cases (db : Database) (now : Nat) (id : String) :
    (lookup Task.id id db.tasks = none ∧ softRemoveTask db now id = db) ∨
      ∃ t, lookup Task.id id db.tasks = some t ∧ softRemoveTask db now id
        = { db with tasks := replace Task.id (markDeleted now t) db.tasks } := by
  cases h : lookup Task.id id db.tasks with
  | none => exact Or.inl ⟨rfl, by simp only [softRemoveTask, h]⟩
  | some t => exact Or.inr ⟨t, rfl, by simp only [softRemoveTask, h]⟩

end PlatformTasks
