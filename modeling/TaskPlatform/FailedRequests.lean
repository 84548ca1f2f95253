import TaskPlatform.Announcements
import TaskPlatform.WorkspaceService

/-! # Requests whose announcements fail

    `createTask`, `updateTask`, `addComment` and `inviteMember` once more, and `signup` of
    `src/modules/auth/auth.service.ts` with `createUser` of
    `src/modules/users/users.service.ts`, in a world where every queue and the insert of a
    notification may fail.  `AuditService.log` and `ActivityService.log` catch what their
    queues throw; `createAndSendNotification` throws it again, and `signup` does not catch
    it either.  By then the row of the request is stored (`no_trace_iff`). -/

namespace PlatformRequests

open AsyncProgram Interleaving PlatformEntities PlatformTasks RowTable
open PlatformApi (ApiOp ApiAudit Postgres plainPostgres apiExec memberKey)

/-! ## Operations -/

/-- The data of a `log-action` job. -/
inductive AuditPayload where
  | task (payload : TaskAudit)
  | api (payload : ApiAudit)
  | signup (email : String)

/-- What the calls await, the queues of both logs and the mailer among it. -/
inductive RequestOp where
  /-- The operations of the services. -/
  | api (op : ApiOp)
  /-- `auditQueue.add('log-action', ..)`. -/
  | addAudit (action userId : String) (payload : AuditPayload)
  /-- `activityQueue.add('log-activity', ..)`. -/
  | addActivity (workspaceId entityType entityId action performedBy : String)
  /-- `emailQueue.add('send-verification', ..)`. -/
  | addVerification (email name code : String)
  /-- `bcrypt.genSalt` and `bcrypt.hash`. -/
  | hashPassword (plain : String)
  | insertUser (email passwordHash name : String)
  | randomBytes

/-- The answers. -/
abbrev RequestOp.Res : RequestOp → Type
  | .api op => op.Res
  | .addAudit _ _ _ => Except HttpError Unit
  | .addActivity _ _ _ _ _ => Except HttpError Unit
  | .addVerification _ _ _ => Except HttpError Unit
  | .hashPassword _ => String
  | .insertUser _ _ _ => Except HttpError User
  | .randomBytes => String

/-- The requests, as programs over these operations. -/
abbrev RequestProg := Prog RequestOp RequestOp.Res HttpError

/-- Await one operation. -/
abbrev ask (op : RequestOp) : RequestProg op.Res := Prog.perform op

/-! ## The programs -/

namespace AuditService

/-- `AuditService.log`: what the queue throws is swallowed. -/
def log (action userId : String) (payload : AuditPayload) : RequestProg Unit :=
  Prog.catching (do
    let added ← ask (.addAudit action userId payload)
    Prog.orThrow added) fun _ => .done ()

end AuditService

namespace ActivityService

/-- `ActivityService.log`: what the queue throws is swallowed. -/
def log (workspaceId entityType entityId action performedBy : String) : RequestProg Unit :=
  Prog.catching (do
    let added ← ask (.addActivity workspaceId entityType entityId action performedBy)
    Prog.orThrow added) fun _ => .done ()

end ActivityService

/-- The operations of the task service, with the two loggers written out. -/
def carryOutTask : (op : TaskOp) → RequestProg op.Res
  | .auditLog action userId payload => AuditService.log action userId (.task payload)
  | .activityLog w ty id action by_ => ActivityService.log w ty id action by_
  | op => ask (.api (.task op))

/-- The operations of the services, with the two loggers written out. -/
def carryOut : (op : ApiOp) → RequestProg op.Res
  | .task op => carryOutTask op
  | .auditLog action userId payload => AuditService.log action userId (.api payload)
  | op => ask (.api op)

/-- `UserService.create`. -/
def createUser (email passwordPlain name : String) : RequestProg User := do
  let existing ← ask (.api (.findUserByEmail email))
  match existing with
  | some _ => .fail (.conflict "A user with this email address already exists")
  | none => do
      let passwordHash ← ask (.hashPassword passwordPlain)
      let saved ← ask (.insertUser email passwordHash name)
      Prog.orThrow saved

/-- What `signup` returns. -/
structure SignupReply where
  userId : String
  email : String
  name : String
  isVerified : Bool
  message : String
  deriving DecidableEq, Repr

/-- `signup`. -/
def signup (email passwordPlain name : String) : RequestProg SignupReply := do
  let user ← createUser email passwordPlain name
  let verificationCode ← ask .randomBytes
  let queued ← ask (.addVerification email name verificationCode)
  Prog.orThrow queued
  AuditService.log "SIGNUP" user.id (.signup email)
  .done ⟨user.id, user.email, user.name, user.isVerified,
    "Registration successful. Verification email enqueued."⟩

/-- The requests that write a row and then announce it. -/
inductive Request where
  | createTask (workspaceId projectId userId : String) (dto : CreateTaskDto)
  | updateTask (id workspaceId userId : String) (dto : UpdateTaskDto)
  | addComment (workspaceId taskId userId message : String)
  | inviteMember (workspaceId performerId email : String) (role : Role)
  | signup (email passwordPlain name : String)

/-- The program of a request; what it returns does not matter here. -/
def Request.prog : Request → RequestProg Unit
  | .createTask w p u dto => do
      let _ ← (PlatformTasks.createTask w p u dto).expand carryOutTask
      .done ()
  | .updateTask id w u dto => do
      let _ ← (PlatformTasks.updateTask id w u dto).expand carryOutTask
      .done ()
  | .addComment w t u message => do
      let _ ← (PlatformApi.addComment w t u message).expand carryOut
      .done ()
  | .inviteMember w u email role => do
      let _ ← (PlatformApi.inviteMember w u email role).expand carryOut
      .done ()
  | .signup email password name => do
      let _ ← PlatformRequests.signup email password name
      .done ()

/-! ## The world -/

/-- What the outside world decides at an await: the same as elsewhere, and the error that
    the call ends in if it is one that may fail. -/
structure Decision where
  choice : Choice := {}
  fault : Option HttpError := none

/-- A call that may fail. -/
def mayFail {α : Type} (d : Decision) (s : TaskState) (go : TaskState × Except HttpError α) :
    TaskState × Except HttpError α :=
  match d.fault with
  | some e => (s.wait d.choice, .error e)
  | none => go

/-- `INSERT` of a user: a generated id, an email that no other user has. -/
def insertUserRow (db : Database) (newId email passwordHash name : String) :
    Except HttpError (Database × User) :=
  let row : User := ⟨newId, email, some passwordHash, name, none, false⟩
  if newId ≠ "" && db.users.all (fun u => u.id ≠ newId && u.email ≠ email) then
    .ok ({ db with users := db.users ++ [row] }, row)
  else
    .error .queryFailed

theorem insertUserRow_ok {db db' : Database} {newId email passwordHash name : String}
    {user : User} (h : insertUserRow db newId email passwordHash name = .ok (db', user)) :
    db' = { db with users := db.users ++ [user] } := by
  unfold insertUserRow at h
  dsimp only at h
  split at h
  · cases h
    rfl
  · cases h

/-- The operations. -/
def requestExec (pg : Postgres) (d : Decision) :
    (op : RequestOp) → TaskState → TaskState × op.Res
  | .api (.task (.insertNotification u ty ti m)), s =>
      mayFail d s (exec pg.text d.choice (.insertNotification u ty ti m) s)
  | .api (.task (.queueAdd job)), s => mayFail d s (exec pg.text d.choice (.queueAdd job) s)
  | .api op, s => apiExec pg d.choice op s
  | .addAudit _ _ _, s => mayFail d s (s.wait d.choice, .ok ())
  | .addActivity _ _ _ _ _, s => mayFail d s (s.wait d.choice, .ok ())
  | .addVerification _ _ _, s => mayFail d s (s.wait d.choice, .ok ())
  | .hashPassword _, s => (s.wait d.choice, d.choice.newId)
  | .insertUser email passwordHash name, s =>
      PlatformApi.commit (s.wait d.choice)
        (insertUserRow s.db d.choice.newId email passwordHash name)
  | .randomBytes, s => (s.wait d.choice, d.choice.newId)

/-! ## What the operations leave behind -/

/-- The tables that a failed request should leave alone. -/
def tables (s : TaskState) : List Task × List Comment × List WorkspaceMember × List User :=
  (s.db.tasks, s.db.comments, s.db.members, s.db.users)

/-- The operations that write the row of a request. -/
inductive Writes : RequestOp → Prop where
  | insertTask (task : NewTask) : Writes (.api (.task (.insert task)))
  | saveTask (task : TaskEntity) : Writes (.api (.task (.save task)))
  | saveMember (member : WorkspaceMember) : Writes (.api (.saveMember member))
  | insertComment (taskId userId message : String) :
      Writes (.api (.insertComment taskId userId message))
  | insertUser (email passwordHash name : String) :
      Writes (.insertUser email passwordHash name)

/-- The operations that leave those tables alone. -/
def Keeps : RequestOp → Prop
  | .api (.task op) => ¬ WritesTasks op
  | .api (.insertWorkspace _ _ _) => False
  | .api (.removeWorkspace _) => False
  | .api (.removeProject _) => False
  | .api (.saveMember _) => False
  | .api (.insertComment _ _ _) => False
  | .insertUser _ _ _ => False
  | _ => True

/-- An error in the place of an answer. -/
def IsError {α : Type} : Except HttpError α → Prop
  | .ok _ => False
  | .error _ => True

/-- The answers that a request passes on as an exception: a rejected write, a
    notification, push or e-mail job that was not accepted.  (Nor does `inviteMember` go
    on without the user whom it invites.) -/
def Refused : (op : RequestOp) → op.Res → Prop
  | .api (.task (.insert _)), r => IsError r
  | .api (.task (.save _)), r => IsError r
  | .api (.task (.insertNotification _ _ _ _)), r => IsError r
  | .api (.task (.queueAdd _)), r => IsError r
  | .api (.saveMember _), r => IsError r
  | .api (.insertComment _ _ _), r => IsError r
  | .api (.findUserById _), r => r = none
  | .addVerification _ _ _, r => IsError r
  | .insertUser _ _ _, r => IsError r
  | _, _ => False

/-- Writes that find the table as they would leave it.  The save of a task that was loaded
    without an assignee is none of them: it counts the version up. -/
def Idle : RequestOp → TaskState → Prop
  | .api (.task (.save e)), s =>
      ∃ row, lookup Task.id e.row.id s.db.tasks = some row ∧
        e.toRow (some row) = some row ∧ e.assignee ≠ none
  | .api (.saveMember m), s => upsert memberKey m s.db.members = s.db.members
  | _, _ => False

theorem Writes.not_keeps {op : RequestOp} (h : Writes op) : ¬ Keeps op := by
  intro hk
  cases h with
  | insertTask task => exact hk trivial
  | saveTask task => exact hk trivial
  | saveMember member => exact hk
  | insertComment taskId userId message => exact hk
  | insertUser email passwordHash name => exact hk

theorem mayFail_tables {α : Type} {d : Decision} {s : TaskState}
    {go : TaskState × Except HttpError α} (h : tables go.1 = tables s) :
    tables (mayFail d s go).1 = tables s := by
  unfold mayFail
  cases d.fault with
  | none => exact h
  | some e => rfl

theorem commit_keeps {α : Type} {s : TaskState} {r : Except HttpError (Database × α)}
    (h : ∀ db a, r = .ok (db, a) → tables { s with db := db } = tables s) :
    tables (PlatformApi.commit s r).1 = tables s := by
  cases r with
  | error e => rfl
  | ok out => exact h out.1 out.2 rfl

theorem exec_keeps (pg : PostgresText) (ω : Choice) {op : TaskOp} (h : ¬ WritesTasks op)
    (s : TaskState) : tables (exec pg ω op s).1 = tables s := by
  obtain ⟨tasks, notifications, hdb⟩ := exec_frame pg ω op s
  have htasks := exec_tasks pg ω op s h
  rw [hdb] at htasks
  unfold tables
  rw [hdb, htasks]

theorem apiExec_keeps (pg : Postgres) (ω : Choice) {op : ApiOp} (h : Keeps (.api op))
    (s : TaskState) : tables (apiExec pg ω op s).1 = tables s := by
  cases op with
  | task op => exact exec_keeps pg.text ω h s
  | insertWorkspace n sl o => exact absurd h not_false
  | removeWorkspace w => exact absurd h not_false
  | removeProject p => exact absurd h not_false
  | saveMember m => exact absurd h not_false
  | insertComment t u m => exact absurd h not_false
  | saveWorkspace w =>
      refine commit_keeps ?_
      intro db saved hs
      rw [(PlatformApi.saveWorkspace_ok hs).1]
      rfl
  | insertProject w n d st =>
      refine commit_keeps ?_
      intro db p hs
      rw [(PlatformApi.insertProject_ok hs).2.2.2.2]
      rfl
  | saveProject p =>
      refine commit_keeps ?_
      intro db p hs
      rw [(PlatformApi.saveProject_ok hs).1]
      rfl
  | _ => rfl

theorem requestExec_keeps (pg : Postgres) (d : Decision) (op : RequestOp) (s : TaskState)
    (h : Keeps op) : tables (requestExec pg d op s).1 = tables s := by
  cases op with
  | api op =>
      cases op with
      | task op =>
          cases op with
          | insertNotification u ty ti m =>
              exact mayFail_tables (exec_keeps pg.text d.choice h s)
          | queueAdd job => exact mayFail_tables rfl
          | _ => exact exec_keeps pg.text d.choice h s
      | _ => exact apiExec_keeps pg d.choice h s
  | addAudit a u p => exact mayFail_tables rfl
  | addActivity w ty id a u => exact mayFail_tables rfl
  | addVerification e n c => exact mayFail_tables rfl
  | hashPassword p => rfl
  | insertUser e p n => exact absurd h not_false
  | randomBytes => rfl

section Outcomes

variable {α : Type} {s : TaskState}

/-- A statement is rejected and changes nothing, or it leads to another database. -/
theorem statement_cases {out : TaskState × Except HttpError α} {P : Database → α → Prop}
    (h : (∃ e, out = (s, .error e)) ∨ ∃ db a, P db a ∧ out = ({ s with db := db }, .ok a)) :
    (IsError out.2 → out.1 = s) ∧
      (¬ IsError out.2 → ∃ db a, P db a ∧ out.1 = { s with db := db }) := by
  rcases h with ⟨e, rfl⟩ | ⟨db, a, hP, rfl⟩
  · exact ⟨fun _ => rfl, fun h => absurd trivial h⟩
  · exact ⟨fun h => absurd h not_false, fun _ => ⟨db, a, hP, rfl⟩⟩

theorem commit_cases (s : TaskState) (r : Except HttpError (Database × α)) :
    (∃ e, PlatformApi.commit s r = (s, .error e)) ∨
      ∃ db a, r = .ok (db, a) ∧ PlatformApi.commit s r = ({ s with db := db }, .ok a) := by
  cases r with
  | error e => exact Or.inl ⟨e, rfl⟩
  | ok out => exact Or.inr ⟨out.1, out.2, rfl, rfl⟩

end Outcomes

theorem requestExec_refused (pg : Postgres) (d : Decision) (op : RequestOp) (s : TaskState)
    (h : Writes op) (hr : Refused op (requestExec pg d op s).2) :
    tables (requestExec pg d op s).1 = tables s := by
  have hwait : ∀ {s' : TaskState}, s' = s.wait d.choice → tables s' = tables s := by
    intro s' hs'
    rw [hs']
    rfl
  cases h with
  | insertTask task =>
      exact hwait ((statement_cases (exec_insert_cases pg.text d.choice task s)).1 hr)
  | saveTask task =>
      exact hwait ((statement_cases (exec_save_cases pg.text d.choice task s)).1 hr)
  | saveMember member => exact hwait ((statement_cases (commit_cases _ _)).1 hr)
  | insertComment taskId userId message =>
      exact hwait ((statement_cases (commit_cases _ _)).1 hr)
  | insertUser email passwordHash name =>
      exact hwait ((statement_cases (commit_cases _ _)).1 hr)

/-- The `save` of an object whose row is not what it stands for changes the table. -/
theorem replace_updateRow_ne {l : List Task} {old new : Task} {now : Nat}
    (h : lookup Task.id new.id l = some old) :
    replace Task.id (updateRow now old new) l ≠ l := by
  intro hsame
  obtain ⟨hold, hid⟩ := lookup_mem h
  have hnew : updateRow now old new ∈ replace Task.id (updateRow now old new) l :=
    List.mem_map.mpr ⟨old, hold, if_pos hid⟩
  -- every row with that id is the new one, and `old` is among them
  have hold' : old ∈ replace Task.id (updateRow now old new) l := by
    rw [hsame]
    exact hold
  have heq : old = updateRow now old new := by
    obtain ⟨r, -, hr⟩ := List.mem_map.mp hold'
    by_cases hrid : r.id = (updateRow now old new).id
    · rw [if_pos hrid] at hr
      exact hr.symm
    · rw [if_neg hrid] at hr
      rw [hr] at hrid
      exact absurd hid hrid
  have hversion : old.version
      = if new.version = old.version then old.version + 1 else new.version :=
    congrArg Task.version heq
  by_cases hv : new.version = old.version
  · rw [if_pos hv] at hversion
    omega
  · rw [if_neg hv] at hversion
    exact hv hversion.symm

/-- What a write that goes through changes. -/
theorem requestExec_idle (pg : Postgres) (d : Decision) (op : RequestOp) (s : TaskState)
    (h : Writes op) (hr : ¬ Refused op (requestExec pg d op s).2) :
    tables (requestExec pg d op s).1 = tables s ↔ Idle op s := by
  cases h with
  | insertTask task =>
      obtain ⟨db, row, hins, h⟩ :=
        (statement_cases (exec_insert_cases pg.text d.choice task s)).2 hr
      obtain ⟨-, -, hdb, -⟩ := insertTask_ok hins
      show tables (exec pg.text d.choice (.insert task) s).1 = tables s ↔ _
      rw [h, hdb]
      refine ⟨?_, fun h => absurd h not_false⟩
      exact fun hsame => absurd (congrArg Prod.fst hsame) append_singleton_ne
  | saveTask task =>
      obtain ⟨db, saved, hs, h⟩ :=
        (statement_cases (exec_save_cases pg.text d.choice task s)).2 hr
      show tables (exec pg.text d.choice (.save task) s).1 = tables s ↔ _
      rw [h]
      -- `save` writes only where the row is gone or there is something to write
      cases hs with
      | unchanged row stored wanted nothing =>
          have hid : row.id = task.row.id := (toRow_some wanted).1.id
          exact ⟨fun _ => ⟨row, hid ▸ stored, wanted, fun hnone => nothing (Or.inl hnone)⟩,
            fun _ => rfl⟩
      | inserted new wanted gone keys =>
          have hid : new.id = task.row.id := (toRow_some wanted).1.id
          constructor
          · exact fun hsame => absurd (congrArg Prod.fst hsame) append_singleton_ne
          · rintro ⟨row, hstored, -, -⟩
            rw [hid, hstored] at gone
            cases gone
      | updated old new wanted stored writes keys =>
          have hid : new.id = task.row.id := (toRow_some wanted).1.id
          constructor
          · exact fun hsame =>
              absurd (congrArg Prod.fst hsame) (replace_updateRow_ne stored)
          · rintro ⟨row, hstored, hwanted, hassigned⟩
            rw [hid, hstored] at stored
            cases stored
            rw [hwanted] at wanted
            cases wanted
            rcases writes with hnone | hne
            · exact absurd hnone hassigned
            · exact absurd rfl hne
  | saveMember member =>
      obtain ⟨db, saved, hs, h⟩ := (statement_cases (commit_cases _ _)).2 hr
      have hdb := (PlatformApi.saveMember_ok hs).2.1
      show tables (PlatformApi.commit (s.wait d.choice) _).1 = tables s ↔ _
      rw [h, hdb]
      constructor
      · exact fun hsame => (Prod.ext_iff.mp (Prod.ext_iff.mp (Prod.ext_iff.mp hsame).2).2).1
      · intro hidle
        -- an upsert of the stored membership leaves the table as it is
        show (s.db.tasks, s.db.comments, upsert memberKey member s.db.members, s.db.users)
          = tables s
        rw [show upsert memberKey member s.db.members = s.db.members from hidle]
        rfl
  | insertComment taskId userId message =>
      obtain ⟨db, saved, hs, h⟩ := (statement_cases (commit_cases _ _)).2 hr
      have hdb := (PlatformApi.insertComment_ok hs).2
      show tables (PlatformApi.commit (s.wait d.choice) _).1 = tables s ↔ _
      rw [h, hdb]
      refine ⟨?_, fun h => absurd h not_false⟩
      exact fun hsame => absurd (congrArg (fun ts => ts.2.1) hsame) append_singleton_ne
  | insertUser email passwordHash name =>
      obtain ⟨db, saved, hs, h⟩ := (statement_cases (commit_cases _ _)).2 hr
      have hdb := insertUserRow_ok hs
      show tables (PlatformApi.commit (s.wait d.choice) _).1 = tables s ↔ _
      rw [h, hdb]
      refine ⟨?_, fun h => absurd h not_false⟩
      exact fun hsame => absurd (congrArg (fun ts => ts.2.2.2) hsame) append_singleton_ne

/-! ## The shape of the requests -/

/-- A call whose error is thrown: where it goes through, the program goes on. -/
theorem passes_on {α β : Type} {g : Except HttpError β → RequestProg α}
    {P : RequestProg α → Prop} (herr : ∀ e, ∃ e', g (.error e) = .fail e')
    (hok : ∀ a, P (g (.ok a))) (r : Except HttpError β) :
    (IsError r → ∃ e, g r = .fail e) ∧ (¬ IsError r → P (g r)) := by
  cases r with
  | ok a => exact ⟨fun h => absurd h not_false, fun _ => hok a⟩
  | error e => exact ⟨fun _ => herr e, fun h => absurd trivial h⟩

/-- The program throws after every refusal and nowhere else, and keeps the rows. -/
abbrev Tells {α : Type} (p : RequestProg α) : Prop := Announces Refused Keeps p

theorem auditLog_tells (action userId : String) (payload : AuditPayload) :
    Tells (AuditService.log action userId payload) := by
  refine .told trivial (fun _ => not_false) ?_
  intro added
  cases added with
  | ok _ => trivial
  | error _ => trivial

theorem activityLog_tells (w ty id a u : String) : Tells (ActivityService.log w ty id a u) := by
  refine .told trivial (fun _ => not_false) ?_
  intro added
  cases added with
  | ok _ => trivial
  | error _ => trivial

theorem createAndSendNotification_tells (u ty ti m : String) :
    Tells ((createAndSendNotification u ty ti m).expand carryOutTask) := by
  refine ⟨not_false, passes_on (fun e => ⟨e, rfl⟩) ?_⟩
  intro notification
  refine .told not_false (fun _ => not_false) ?_
  intro _
  refine ⟨not_false, passes_on (fun e => ⟨e, rfl⟩) ?_⟩
  intro _
  refine ⟨not_false, passes_on (fun e => ⟨e, rfl⟩) ?_⟩
  intro _
  trivial

/-- An operation that nothing observed depends on and that nobody refuses. -/
def Harmless (op : RequestOp) : Prop := Keeps op ∧ ∀ r, ¬ Refused op r

theorem ask_task_tells {op : TaskOp} (h : Harmless (.api (.task op))) :
    Tells ((PlatformTasks.ask op).expand carryOutTask) := by
  cases op with
  | auditLog a u p => exact (auditLog_tells a u (.task p)).bind fun _ => trivial
  | activityLog w ty id a u => exact (activityLog_tells w ty id a u).bind fun _ => trivial
  | _ => exact .told h.1 h.2 fun _ => trivial

theorem ask_tells {op : ApiOp} (h : Harmless (.api op)) :
    Tells ((PlatformApi.ask op).expand carryOut) := by
  cases op with
  | task op => exact ask_task_tells h
  | auditLog a u p => exact (auditLog_tells a u (.api p)).bind fun _ => trivial
  | _ => exact .told h.1 h.2 fun _ => trivial

/-- The same for an operation before the write. -/
theorem carryOutTask_harmless (op : TaskOp) (h : Harmless (.api (.task op))) :
    OnlyIssues Harmless (carryOutTask op) := by
  cases op with
  | auditLog a u p =>
      refine ⟨⟨trivial, fun _ => not_false⟩, ?_⟩
      intro r
      cases r <;> trivial
  | activityLog w ty id a u =>
      refine ⟨⟨trivial, fun _ => not_false⟩, ?_⟩
      intro r
      cases r <;> trivial
  | _ => exact ⟨h, fun _ => trivial⟩

theorem carryOut_harmless (op : ApiOp) (h : Harmless (.api op)) :
    OnlyIssues Harmless (carryOut op) := by
  cases op with
  | task op => exact carryOutTask_harmless op h
  | auditLog a u p =>
      refine ⟨⟨trivial, fun _ => not_false⟩, ?_⟩
      intro r
      cases r <;> trivial
  | _ => exact ⟨h, fun _ => trivial⟩

theorem expand_liftTask {α : Type} (p : TaskProg α) :
    (PlatformApi.liftTask p).expand carryOut = p.expand carryOutTask := by
  induction p with
  | done a => rfl
  | fail e => rfl
  | await op k ih => exact congrArg (carryOutTask op >>= ·) (funext ih)

/-- The program commits its row, and after it only announces. -/
abbrev CommitsRow {α : Type} (p : RequestProg α) : Prop :=
  CommitsOnce Refused Writes Keeps p

theorem notifyAssignee_tells (dto : CreateTaskDto) :
    Tells ((notifyAssignee dto).expand carryOutTask) := by
  unfold notifyAssignee
  cases truthy dto.assignedTo with
  | none => trivial
  | some assignee =>
      exact .expand_bind (createAndSendNotification_tells _ _ _ _) fun _ => trivial

theorem createTask_commits (w p u : String) (dto : CreateTaskDto) :
    CommitsRow ((createTask w p u dto).expand carryOutTask) := by
  refine Or.inr ⟨.insertTask _, passes_on (fun e => ⟨e, rfl⟩) ?_⟩
  intro saved
  show Tells ((PlatformTasks.ask (.cacheDelPattern _) >>= _).expand carryOutTask)
  refine .expand_bind (ask_task_tells ⟨not_false, fun _ => not_false⟩) fun _ => ?_
  refine .expand_bind (ask_task_tells ⟨not_false, fun _ => not_false⟩) fun _ => ?_
  refine .expand_bind (ask_task_tells ⟨not_false, fun _ => not_false⟩) fun _ => ?_
  refine .expand_bind (ask_task_tells ⟨not_false, fun _ => not_false⟩) fun _ => ?_
  exact .expand_bind (notifyAssignee_tells dto) fun _ => trivial

theorem announceUpdate_tells (id w u : String) (task : TaskEntity) (completed changed : Bool) :
    Tells ((announceUpdate id w u task completed changed).expand carryOutTask) := by
  unfold announceUpdate
  by_cases hcompleted : completed = true
  · rw [if_pos hcompleted]
    refine .expand_bind (ask_task_tells ⟨not_false, fun _ => not_false⟩) fun _ => ?_
    by_cases hcreator : task.row.createdBy ≠ u
    · rw [if_pos hcreator]
      exact .expand_bind (createAndSendNotification_tells _ _ _ _) fun _ => trivial
    · rw [if_neg hcreator]
      trivial
  · rw [if_neg hcompleted]
    cases changed with
    | false => exact ask_task_tells ⟨not_false, fun _ => not_false⟩
    | true =>
        cases truthy task.row.assignedTo with
        | none => exact ask_task_tells ⟨not_false, fun _ => not_false⟩
        | some assignee =>
            refine .expand_bind (ask_task_tells ⟨not_false, fun _ => not_false⟩) fun _ => ?_
            exact .expand_bind (createAndSendNotification_tells _ _ _ _) fun _ => trivial

theorem afterSave_tells (id w u : String) (dto : UpdateTaskDto) (task : LoadedTask)
    (saved : TaskEntity) : Tells ((afterSave id w u dto task saved).expand carryOutTask) := by
  unfold afterSave
  refine .expand_bind (ask_task_tells ⟨not_false, fun _ => not_false⟩) fun _ => ?_
  refine .expand_bind (ask_task_tells ⟨not_false, fun _ => not_false⟩) fun _ => ?_
  refine .expand_bind (ask_task_tells ⟨not_false, fun _ => not_false⟩) fun _ => ?_
  refine .expand_bind (announceUpdate_tells _ _ _ _ _ _) fun _ => ?_
  exact .expand_bind (ask_task_tells ⟨not_false, fun _ => not_false⟩) fun _ => trivial

theorem findById_harmless (id w : String) :
    OnlyIssues (fun op => Harmless (.api (.task op))) (PlatformTasks.findById id w) := by
  refine (findById_issues id w).mono ?_
  rintro op (_ | _ | _) <;> exact ⟨not_false, fun _ => not_false⟩

theorem completionTime_harmless (dto : UpdateTaskDto) (task : LoadedTask) :
    OnlyIssues (fun op => Harmless (.api (.task op))) (completionTime dto task) := by
  refine (completionTime_issues dto task).mono ?_
  rintro op rfl
  exact ⟨not_false, fun _ => not_false⟩

theorem updateTask_commits (id w u : String) (dto : UpdateTaskDto) :
    CommitsRow ((updateTask id w u dto).expand carryOutTask) := by
  unfold updateTask
  rw [Prog.expand_bind]
  refine CommitsOnce.after (onlyIssues_expand carryOutTask_harmless (findById_harmless id w)) ?_
  intro task
  unfold updateLoaded
  by_cases hversion : versionMismatch dto.version task.row.version = true
  · rw [if_pos hversion]
    trivial
  · rw [if_neg hversion, Prog.expand_bind]
    refine CommitsOnce.after
      (onlyIssues_expand carryOutTask_harmless (completionTime_harmless dto task)) ?_
    intro completedAt
    refine Or.inr ⟨.saveTask _, passes_on (fun e => ⟨e, rfl⟩) ?_⟩
    exact fun saved => afterSave_tells id w u dto task saved

theorem notifyAll_tells (task : Task) (message : String) (targets : List String) :
    Tells ((PlatformApi.notifyAll task message targets).expand carryOut) := by
  induction targets with
  | nil => trivial
  | cons target rest ih =>
      refine .expand_bind ?_ fun _ => ih
      rw [expand_liftTask]
      exact createAndSendNotification_tells _ _ _ _

theorem addComment_commits (w t u message : String) :
    CommitsRow ((PlatformApi.addComment w t u message).expand carryOut) := by
  refine Or.inl ⟨trivial, fun _ => not_false, ?_⟩
  intro found
  cases found with
  | none => trivial
  | some task =>
      refine Or.inr ⟨.insertComment _ _ _, passes_on (fun e => ⟨e, rfl⟩) ?_⟩
      intro saved
      show Tells ((PlatformApi.ask (.findComment _) >>= _).expand carryOut)
      refine .expand_bind (ask_tells ⟨trivial, fun _ => not_false⟩) fun _ => ?_
      refine .expand_bind (ask_tells ⟨trivial, fun _ => not_false⟩) fun _ => ?_
      refine .expand_bind (ask_tells ⟨trivial, fun _ => not_false⟩) fun _ => ?_
      refine .expand_bind (ask_tells ⟨not_false, fun _ => not_false⟩) fun _ => ?_
      exact .expand_bind (notifyAll_tells task message _) fun _ => trivial

theorem findWorkspace_harmless (id : String) :
    OnlyIssues (fun op => Harmless (.api op)) (PlatformApi.findById id) :=
  PlatformApi.onlyIssues_findById (fun _ => ⟨not_false, fun _ => not_false⟩)
    (fun _ _ _ => ⟨not_false, fun _ => not_false⟩)
    (fun _ => ⟨trivial, fun _ => not_false⟩) id

theorem inviteMember_commits (w u email : String) (role : Role) :
    CommitsRow ((PlatformApi.inviteMember w u email role).expand carryOut) := by
  unfold PlatformApi.inviteMember
  rw [Prog.expand_bind]
  refine CommitsOnce.after (onlyIssues_expand carryOut_harmless (findWorkspace_harmless w)) ?_
  intro workspace
  refine Or.inl ⟨trivial, fun _ => not_false, ?_⟩
  intro found
  cases found with
  | none => trivial
  | some user =>
      refine Or.inl ⟨trivial, fun _ => not_false, ?_⟩
      intro existing
      cases existing with
      | some member => trivial
      | none =>
          refine Or.inr ⟨.saveMember _, passes_on (fun e => ⟨e, rfl⟩) ?_⟩
          intro saved
          refine ⟨trivial, ?_⟩
          intro invited
          cases invited with
          | none => exact ⟨fun _ => ⟨_, rfl⟩, fun h => absurd rfl h⟩
          | some invitedUser =>
              refine ⟨(fun h => by cases h), fun _ => ?_⟩
              show Tells ((PlatformApi.ask (.sendMemberJoined _ _ _) >>= _).expand carryOut)
              refine .expand_bind (ask_tells ⟨trivial, fun _ => not_false⟩) fun _ => ?_
              refine .expand_bind ?_ fun _ => ?_
              · rw [expand_liftTask]
                exact createAndSendNotification_tells _ _ _ _
              · exact .expand_bind (ask_tells ⟨trivial, fun _ => not_false⟩) fun _ => trivial

theorem signup_commits (email password name : String) :
    CommitsRow (signup email password name) := by
  refine Or.inl ⟨trivial, fun _ => not_false, ?_⟩
  intro existing
  cases existing with
  | some user => trivial
  | none =>
      refine Or.inl ⟨trivial, fun _ => not_false, ?_⟩
      intro passwordHash
      refine Or.inr ⟨.insertUser _ _ _, passes_on (fun e => ⟨e, rfl⟩) ?_⟩
      intro user
      refine .told trivial (fun _ => not_false) ?_
      intro code
      refine ⟨trivial, passes_on (fun e => ⟨e, rfl⟩) ?_⟩
      intro _
      exact (auditLog_tells _ _ _).bind fun _ => trivial

theorem request_commits (call : Request) : CommitsRow call.prog := by
  cases call with
  | createTask w p u dto => exact (createTask_commits w p u dto).returning fun _ => ()
  | updateTask id w u dto => exact (updateTask_commits id w u dto).returning fun _ => ()
  | addComment w t u message => exact (addComment_commits w t u message).returning fun _ => ()
  | inviteMember w u email role =>
      exact (inviteMember_commits w u email role).returning fun _ => ()
  | signup email password name => exact (signup_commits email password name).returning fun _ => ()

/-- **When a failed request leaves no trace.**  For every state, every request and every
    pattern of failures: if it throws, the four tables are as before, exactly when no
    notification insert, push job or e-mail job that it asks for is refused, or its write
    finds nothing to change. -/
theorem no_trace_iff (pg : Postgres) (ω : Nat → Decision) (call : Request) (s : TaskState) :
    ((∃ e, (solo (requestExec pg) ω call.prog s).2 = .error e) →
      tables (solo (requestExec pg) ω call.prog s).1 = tables s) ↔
      Along (requestExec pg)
          (fun d op s => Keeps op → ¬ Refused op (requestExec pg d op s).2) ω call.prog s ∨
        Along (requestExec pg) (fun _ op s => Writes op → Idle op s) ω call.prog s :=
  leaves_no_trace_iff (requestExec_keeps pg) (fun _ h => h.not_keeps)
    (requestExec_refused pg) (requestExec_idle pg) (request_commits call) ω s

/-- The queue of the notifications is down. -/
def pushDown (n : Nat) : Decision :=
  { choice := ⟨0, [], "1"⟩
    fault := if n = 7 then some .queryFailed else none }

/-- A task for Bob, of whom the notification is stored and sent, and the push job is not
    accepted. -/
theorem failed_request_leaves_task :
    let call : Request := .createTask "w" "p" "a" { title := "Plan", assignedTo := some "b" }
    (∃ e, (solo (requestExec plainPostgres) pushDown call.prog office).2 = .error e) ∧
      (solo (requestExec plainPostgres) pushDown call.prog office).1.db.tasks.map Task.title
        = ["Plan"] ∧
      tables (solo (requestExec plainPostgres) pushDown call.prog office).1
        ≠ tables office := by
  intro call
  have hstored : (solo (requestExec plainPostgres) pushDown call.prog office).1.db.tasks.map
      Task.title = ["Plan"] := by decide
  refine ⟨⟨_, rfl⟩, hstored, ?_⟩
  intro hsame
  have htasks : (solo (requestExec plainPostgres) pushDown call.prog office).1.db.tasks = [] :=
    congrArg Prod.fst hsame
  rw [htasks] at hstored
  cases hstored

end PlatformRequests
