import Mathlib.Data.Set.Insert
import TaskPlatform.CacheTransparency
import TaskPlatform.NotificationInbox

/-! # The tables that operations write to

    Most operations leave most tables alone, and of the notifications those of most users.
    A program whose operations write to certain tables only changes no other
    (`onlyIn_ensures`), whatever the answers. -/

namespace PlatformTables

open AsyncProgram Interleaving PlatformEntities PlatformTasks PlatformApi RowTable

/-! ## Tables -/

/-- The tables; that of the notifications is taken apart by its users. -/
inductive Table where
  | workspaces
  | members
  | projects
  | tasks
  | comments
  /-- The notifications of a user. -/
  | inbox (userId : String)

/-- The notifications of a user, in the order of the table. -/
def inboxOf (userId : String) (db : Database) : List Notification :=
  db.notifications.filter fun n => n.userId = userId

/-- The table is as it was. -/
def Table.Same (db db' : Database) : Table → Prop
  | .workspaces => db'.workspaces = db.workspaces
  | .members => db'.members = db.members
  | .projects => db'.projects = db.projects
  | .tasks => db'.tasks = db.tasks
  | .comments => db'.comments = db.comments
  | .inbox userId => inboxOf userId db' = inboxOf userId db

/-- The notifications of all users. -/
def inboxes : Set Table := Set.range Table.inbox

/-- No table has changed but these; users never do. -/
structure OnlyIn (T : Set Table) (db db' : Database) : Prop where
  users : db'.users = db.users
  same : ∀ t, t ∉ T → t.Same db db'

/-- A table is as it was when nothing was done. -/
theorem Table.same_refl (t : Table) (db : Database) : t.Same db db := by
  cases t <;> rfl

/-- What is kept twice is kept. -/
theorem Table.Same.trans {t : Table} {db db' db'' : Database} (h : t.Same db db')
    (h' : t.Same db' db'') : t.Same db db'' := by
  cases t with
  | workspaces => exact Eq.trans h' h
  | members => exact Eq.trans h' h
  | projects => exact Eq.trans h' h
  | tasks => exact Eq.trans h' h
  | comments => exact Eq.trans h' h
  | inbox userId => exact Eq.trans h' h

namespace OnlyIn

variable {T : Set Table} {db db' db'' : Database}

/-- Nothing done changes no table. -/
theorem refl (T : Set Table) (db : Database) : OnlyIn T db db :=
  ⟨rfl, fun t _ => t.same_refl db⟩

/-- Two changes of these tables are one. -/
theorem trans (h : OnlyIn T db db') (h' : OnlyIn T db' db'') : OnlyIn T db db'' :=
  ⟨h'.users.trans h.users, fun t ht => (h.same t ht).trans (h'.same t ht)⟩

/-- More tables may be named. -/
theorem mono {T' : Set Table} (h : OnlyIn T db db') (hT : T ⊆ T') : OnlyIn T' db db' :=
  ⟨h.users, fun t ht => h.same t fun hmem => ht (hT hmem)⟩

end OnlyIn

/-- The tables that an operation writes to. -/
def writes : ApiOp → Set Table
  | .task (.insert _) => {.tasks}
  | .task (.save _) => {.tasks}
  | .task (.softRemove _) => {.tasks}
  | .task (.insertNotification userId _ _ _) => {.inbox userId}
  | .insertWorkspace _ _ _ => {.workspaces, .members}
  | .saveWorkspace _ => {.workspaces}
  | .removeWorkspace _ => {.workspaces, .members, .projects, .tasks, .comments}
  | .saveMember _ => {.members}
  | .insertProject _ _ _ _ => {.projects}
  | .saveProject _ => {.projects}
  | .removeProject _ => {.projects, .tasks, .comments}
  | .insertComment _ _ _ => {.comments}
  | _ => ∅

/-- A statement that is rejected changes no table. -/
theorem commit_onlyIn {α : Type} {T : Set Table} {s : TaskState}
    {r : Except HttpError (Database × α)} (h : ∀ db a, r = .ok (db, a) → OnlyIn T s.db db) :
    OnlyIn T s.db (commit s r).1.db := by
  cases r with
  | error e => exact OnlyIn.refl T s.db
  | ok out => exact h out.1 out.2 rfl

/-- A notification goes to its user. -/
theorem insertNotification_inbox (pg : PostgresText) (ω : Choice)
    (userId type title message : String) (s : TaskState) {userId' : String}
    (h : userId ≠ userId') :
    inboxOf userId' (exec pg ω (.insertNotification userId type title message) s).1.db
      = inboxOf userId' s.db := by
  rcases exec_notification_cases pg ω userId type title message s with ⟨-, hout⟩
    | ⟨-, hout⟩
  · rw [hout]
    rfl
  · rw [hout]
    exact filter_append_ne s.db.notifications (decide_eq_false h)

/-- The task service's operations write to their tables only. -/
theorem exec_onlyIn (pg : PostgresText) (ω : Choice) (op : TaskOp) (s : TaskState) :
    OnlyIn (writes (.task op)) s.db (exec pg ω op s).1.db := by
  obtain ⟨tasks, notifications, h⟩ := exec_frame pg ω op s
  refine ⟨by rw [h], fun t ht => ?_⟩
  cases t with
  | tasks =>
      refine exec_tasks pg ω op s fun hwrites => ht ?_
      cases op with
      | insert n => rfl
      | save e => rfl
      | softRemove t => rfl
      | _ => exact hwrites.elim
  | inbox userId =>
      by_cases hop : ∃ u ty ti m, op = .insertNotification u ty ti m
      · obtain ⟨u, ty, ti, m, rfl⟩ := hop
        refine insertNotification_inbox pg ω u ty ti m s fun hu => ht ?_
        rw [hu]
        rfl
      · refine congrArg (List.filter _) (PlatformInbox.exec_notifications pg ω op s ?_)
        exact fun u ty ti m hsame => hop ⟨u, ty, ti, m, hsame⟩
  | workspaces => rw [h]; rfl
  | members => rw [h]; rfl
  | projects => rw [h]; rfl
  | comments => rw [h]; rfl

/-- **Operations write to their tables only.** -/
theorem apiExec_onlyIn (pg : Postgres) (ω : Choice) (op : ApiOp) (s : TaskState) :
    OnlyIn (writes op) s.db (apiExec pg ω op s).1.db := by
  cases op with
  | task op => exact exec_onlyIn pg.text ω op s
  | insertWorkspace n sl o =>
      refine commit_onlyIn (s := s.wait ω) fun db w h => ?_
      rw [(insertWorkspace_ok h).2.2.2]
      refine ⟨rfl, fun t ht => ?_⟩
      cases t <;> first | rfl | simp [writes] at ht
  | saveWorkspace w =>
      refine commit_onlyIn (s := s.wait ω) fun db w h => ?_
      rw [(saveWorkspace_ok h).1]
      refine ⟨rfl, fun t ht => ?_⟩
      cases t <;> first | rfl | simp [writes] at ht
  | removeWorkspace id =>
      refine ⟨rfl, fun t ht => ?_⟩
      cases t <;> first | rfl | simp [writes] at ht
  | saveMember m =>
      refine commit_onlyIn (s := s.wait ω) fun db w h => ?_
      rw [(saveMember_ok h).2.1]
      refine ⟨rfl, fun t ht => ?_⟩
      cases t <;> first | rfl | simp [writes] at ht
  | insertProject w n d st =>
      refine commit_onlyIn (s := s.wait ω) fun db w h => ?_
      rw [(insertProject_ok h).2.2.2.2]
      refine ⟨rfl, fun t ht => ?_⟩
      cases t <;> first | rfl | simp [writes] at ht
  | saveProject p =>
      refine commit_onlyIn (s := s.wait ω) fun db w h => ?_
      rw [(saveProject_ok h).1]
      refine ⟨rfl, fun t ht => ?_⟩
      cases t <;> first | rfl | simp [writes] at ht
  | removeProject id =>
      refine ⟨rfl, fun t ht => ?_⟩
      cases t <;> first | rfl | simp [writes] at ht
  | insertComment t u m =>
      refine commit_onlyIn (s := s.wait ω) fun db w h => ?_
      rw [(insertComment_ok h).2]
      refine ⟨rfl, fun t ht => ?_⟩
      cases t <;> first | rfl | simp [writes] at ht
  | _ => exact OnlyIn.refl _ s.db

/-! ## Programs -/

/-- The operation writes to these tables only. -/
def WritesTo (T : Set Table) (op : ApiOp) : Prop := writes op ⊆ T

section Programs

variable {T : Set Table}

/-- An operation that writes nowhere. -/
theorem writesTo_none {op : ApiOp} (h : writes op = ∅) : WritesTo T op := by
  rw [WritesTo, h]
  exact Set.empty_subset T

/-- Whatever the task service issues. -/
theorem liftTask_writes {α : Type} (p : TaskProg α) (htasks : Table.tasks ∈ T)
    (hinboxes : inboxes ⊆ T) : OnlyIssues (WritesTo T) (liftTask p) := by
  induction p with
  | done a => trivial
  | fail e => trivial
  | await op k ih =>
      refine OnlyIssues.await ?_ ih
      cases op with
      | insert n => exact Set.singleton_subset_iff.mpr htasks
      | save e => exact Set.singleton_subset_iff.mpr htasks
      | softRemove t => exact Set.singleton_subset_iff.mpr htasks
      | insertNotification u ty ti m =>
          exact Set.singleton_subset_iff.mpr (hinboxes ⟨u, rfl⟩)
      | _ => exact writesTo_none rfl

/-- A notification is one of its user's. -/
theorem notification_writes {u : String} (hu : Table.inbox u ∈ T) (ty ti m : String) :
    OnlyIssues (WritesTo T) (liftTask (createAndSendNotification u ty ti m)) := by
  refine onlyIssues_liftTask ((notification_issues u ty ti m).mono ?_)
  rintro op (_ | _ | _ | _)
  · exact Set.singleton_subset_iff.mpr hu
  · exact writesTo_none rfl
  · exact writesTo_none rfl
  · exact writesTo_none rfl

/-- Looking a workspace up writes to no table. -/
theorem findById_writes (id : String) :
    OnlyIssues (WritesTo T) (PlatformApi.findById id) :=
  onlyIssues_findById (fun _ => writesTo_none rfl) (fun _ _ _ => writesTo_none rfl)
    (fun _ => writesTo_none rfl) id

/-- Dropping a workspace from the cache writes to no table. -/
theorem dropWorkspace_writes (id : String) (w : LoadedWorkspace) :
    OnlyIssues (WritesTo T) (dropWorkspace id w) :=
  OnlyIssues.await (writesTo_none rfl) fun _ =>
    OnlyIssues.await (writesTo_none rfl) fun _ => trivial

/-! ### Workspaces -/

/-- A new workspace, and its owner as a member. -/
theorem createWorkspace_writes (u name : String) (slug : Option String)
    (hworkspaces : Table.workspaces ∈ T) (hmembers : Table.members ∈ T) :
    OnlyIssues (WritesTo T) (PlatformApi.createWorkspace u name slug) := by
  have hinsert : ∀ sl, WritesTo T (.insertWorkspace name sl u) :=
    fun _ => Set.insert_subset hworkspaces (Set.singleton_subset_iff.mpr hmembers)
  refine OnlyIssues.await (writesTo_none rfl) ?_
  rintro (_ | existing)
  · refine OnlyIssues.await (hinsert _) fun answer => ?_
    refine (onlyIssues_orThrow answer).bind fun saved => ?_
    exact OnlyIssues.await (writesTo_none rfl) fun _ => trivial
  · trivial

/-- A workspace is saved. -/
theorem updateWorkspace_writes (id u name : String) (hworkspaces : Table.workspaces ∈ T) :
    OnlyIssues (WritesTo T) (PlatformApi.updateWorkspace id u name) := by
  have hsave : ∀ w, WritesTo T (.saveWorkspace w) :=
    fun _ => Set.singleton_subset_iff.mpr hworkspaces
  refine (findById_writes id).bind fun w => ?_
  refine OnlyIssues.await (hsave _) fun answer => ?_
  refine (onlyIssues_orThrow answer).bind fun saved => ?_
  refine (dropWorkspace_writes id w).bind fun _ => ?_
  exact OnlyIssues.await (writesTo_none rfl) fun _ => trivial

/-- A workspace goes, with what hangs on it. -/
theorem deleteWorkspace_writes (id u : String)
    (hremove : ∀ id, WritesTo T (.removeWorkspace id)) :
    OnlyIssues (WritesTo T) (PlatformApi.deleteWorkspace id u) := by
  refine (findById_writes id).bind fun w => ?_
  refine OnlyIssues.await (hremove _) fun _ => ?_
  refine (dropWorkspace_writes id w).bind fun _ => ?_
  exact OnlyIssues.await (writesTo_none rfl) fun _ => trivial

/-- The end of an invitation: the new member is told. -/
theorem invited_writes (w u email : String) (role : Role) (workspace : LoadedWorkspace)
    (user : UserView) (hmembers : Table.members ∈ T) (huser : Table.inbox user.id ∈ T) :
    OnlyIssues (WritesTo T) (do
      let answer ← ask (.saveMember ⟨w, user.id, role⟩)
      let savedMember ← orThrow answer
      let invited ← ask (.findUserById user.id)
      let invitedUser ← orNotFound "User not found" invited
      ask (.sendMemberJoined w role invitedUser)
      let _ ← liftTask (createAndSendNotification user.id "WORKSPACE_MEMBER_JOINED"
        ("Joined Workspace: " ++ workspace.row.name)
        ("You have been added to the workspace \"" ++ workspace.row.name ++ "\" as a "
          ++ role.text ++ "."))
      ask (.auditLog "WORKSPACE_INVITE" u (.invited w user.id email role))
      Prog.done savedMember) := by
  refine OnlyIssues.await (Set.singleton_subset_iff.mpr hmembers) fun answer => ?_
  refine (onlyIssues_orThrow answer).bind fun saved => ?_
  refine OnlyIssues.await (writesTo_none rfl) fun invited => ?_
  refine (onlyIssues_orNotFound _ invited).bind fun invitedUser => ?_
  refine OnlyIssues.await (writesTo_none rfl) fun _ => ?_
  refine (notification_writes huser _ _ _).bind fun _ => ?_
  exact OnlyIssues.await (writesTo_none rfl) fun _ => trivial

/-- A member is saved, and told. -/
theorem inviteMember_writes (w u email : String) (role : Role)
    (hmembers : Table.members ∈ T) (hinboxes : inboxes ⊆ T) :
    OnlyIssues (WritesTo T) (PlatformApi.inviteMember w u email role) := by
  refine (findById_writes w).bind fun workspace => ?_
  refine OnlyIssues.await (writesTo_none rfl) fun found => ?_
  refine (onlyIssues_orNotFound _ found).bind fun user => ?_
  refine OnlyIssues.await (writesTo_none rfl) ?_
  rintro (_ | existing)
  · exact invited_writes w u email role workspace user hmembers (hinboxes ⟨_, rfl⟩)
  · trivial

/-! ### Projects -/

/-- The end of a call about a project: the list is dropped, and both logs are told. -/
theorem projectLogged_writes {α : Type} (key action u : String) (payload : ApiAudit)
    (w id type : String) (a : α) :
    OnlyIssues (WritesTo T) (do
      ask (.task (.cacheDel key))
      ask (.auditLog action u payload)
      activityLog w "PROJECT" id type u
      Prog.done a) :=
  OnlyIssues.await (writesTo_none rfl) fun _ => OnlyIssues.await (writesTo_none rfl) fun _ =>
    OnlyIssues.await (writesTo_none rfl) fun _ => trivial

/-- A new project. -/
theorem createProject_writes (w u name : String) (description : Option String)
    (hprojects : Table.projects ∈ T) :
    OnlyIssues (WritesTo T) (PlatformApi.createProject w u name description) := by
  refine OnlyIssues.await (Set.singleton_subset_iff.mpr hprojects) fun answer => ?_
  refine (onlyIssues_orThrow answer).bind fun saved => ?_
  exact projectLogged_writes _ _ _ _ _ _ _ saved

/-- A project is saved. -/
theorem updateProject_writes (id w u : String) (name description status : Option String)
    (hprojects : Table.projects ∈ T) :
    OnlyIssues (WritesTo T)
      (PlatformApi.updateProject id w u name description status) := by
  refine OnlyIssues.await (writesTo_none rfl) fun found => ?_
  refine (onlyIssues_orNotFound _ found).bind fun project => ?_
  refine OnlyIssues.await (Set.singleton_subset_iff.mpr hprojects) fun answer => ?_
  refine (onlyIssues_orThrow answer).bind fun saved => ?_
  exact projectLogged_writes _ _ _ _ _ _ _ saved

/-- A project goes, with what hangs on it. -/
theorem deleteProject_writes (id w u : String)
    (hremove : ∀ id, WritesTo T (.removeProject id)) :
    OnlyIssues (WritesTo T) (PlatformApi.deleteProject id w u) := by
  refine OnlyIssues.await (writesTo_none rfl) fun found => ?_
  refine (onlyIssues_orNotFound _ found).bind fun project => ?_
  refine OnlyIssues.await (hremove _) fun _ => ?_
  refine OnlyIssues.await (writesTo_none rfl) fun _ => ?_
  refine OnlyIssues.await (writesTo_none rfl) fun _ => ?_
  exact OnlyIssues.await (writesTo_none rfl) fun _ => trivial

/-! ### Tasks and comments -/

/-- The assignee is told. -/
theorem createTask_writes (w p u : String) (dto : CreateTaskDto)
    (htasks : Table.tasks ∈ T)
    (hassignee : ∀ x, dto.assignedTo = some x → Table.inbox x ∈ T) :
    OnlyIssues (WritesTo T) (liftTask (PlatformTasks.createTask w p u dto)) := by
  have hnotify : OnlyIssues (WritesTo T) (liftTask (notifyAssignee dto)) := by
    unfold notifyAssignee
    cases h : truthy dto.assignedTo with
    | none => trivial
    | some x =>
        rw [liftTask_bind]
        exact (notification_writes (hassignee x (truthy_eq_some.mp h).1) _ _ _).bind
          fun _ => trivial
  refine OnlyIssues.await (Set.singleton_subset_iff.mpr htasks) ?_
  rintro (e | row)
  · trivial
  refine OnlyIssues.await (writesTo_none rfl) fun _ => ?_
  refine OnlyIssues.await (writesTo_none rfl) fun _ => ?_
  refine OnlyIssues.await (writesTo_none rfl) fun _ => ?_
  refine OnlyIssues.await (writesTo_none rfl) fun _ => ?_
  show OnlyIssues (WritesTo T)
    (liftTask (notifyAssignee dto >>= fun _ => Prog.done (TaskReply.created row)))
  rw [liftTask_bind]
  exact hnotify.bind fun _ => trivial

/-- The creator is told unless it is the actor, and whoever has been assigned. -/
theorem announceUpdate_writes (id w u : String) (task : TaskEntity) (completed changed : Bool)
    (hothers : ∀ x, x ≠ u → Table.inbox x ∈ T)
    (hassignee : changed = true → ∀ x, truthy task.row.assignedTo = some x →
      Table.inbox x ∈ T) :
    OnlyIssues (WritesTo T) (liftTask (announceUpdate id w u task completed changed)) := by
  have hnotify : ∀ x ty ti m, Table.inbox x ∈ T → OnlyIssues (WritesTo T)
      (liftTask (createAndSendNotification x ty ti m >>= fun _ => (.done () : TaskProg Unit))) := by
    intro x ty ti m hx
    rw [liftTask_bind]
    exact (notification_writes hx ty ti m).bind fun _ => trivial
  unfold announceUpdate
  cases completed with
  | true =>
      simp only [if_true]
      refine OnlyIssues.await (writesTo_none rfl) fun _ => ?_
      by_cases hcreator : task.row.createdBy ≠ u
      · simp only [if_pos hcreator]
        exact hnotify _ _ _ _ (hothers _ hcreator)
      · simp only [if_neg hcreator]
        trivial
  | false =>
      simp only [Bool.false_eq_true, if_false]
      cases changed with
      | false => exact OnlyIssues.await (writesTo_none rfl) fun _ => trivial
      | true =>
          cases h : truthy task.row.assignedTo with
          | none => exact OnlyIssues.await (writesTo_none rfl) fun _ => trivial
          | some x =>
              exact OnlyIssues.await (writesTo_none rfl) fun _ =>
                hnotify _ _ _ _ (hassignee rfl x h)

/-- After the save of a task nothing is written but notifications. -/
theorem afterSave_writes (id w u : String) (dto : UpdateTaskDto) (task : LoadedTask)
    (saved : TaskEntity) (hothers : ∀ x, x ≠ u → Table.inbox x ∈ T)
    (hassignee : assigneeChanges dto task = true → ∀ x, truthy saved.row.assignedTo = some x →
      Table.inbox x ∈ T) :
    OnlyIssues (WritesTo T) (liftTask (afterSave id w u dto task saved)) := by
  refine OnlyIssues.await (writesTo_none rfl) fun _ => ?_
  refine OnlyIssues.await (writesTo_none rfl) fun _ => ?_
  refine OnlyIssues.await (writesTo_none rfl) fun _ => ?_
  show OnlyIssues (WritesTo T) (liftTask (announceUpdate _ _ _ _ _ _ >>= _))
  rw [liftTask_bind]
  refine (announceUpdate_writes id w u saved _ _ hothers hassignee).bind fun _ => ?_
  exact OnlyIssues.await (writesTo_none rfl) fun _ => trivial

/-- A task is marked as deleted. -/
theorem deleteTask_writes (id w u : String) (htasks : Table.tasks ∈ T) :
    OnlyIssues (WritesTo T) (liftTask (PlatformTasks.deleteTask id w u)) := by
  have hfind : OnlyIssues (WritesTo T) (liftTask (PlatformTasks.findById id w)) := by
    refine onlyIssues_liftTask ((findById_issues id w).mono ?_)
    rintro op (_ | _ | _) <;> exact writesTo_none rfl
  show OnlyIssues (WritesTo T) (liftTask (PlatformTasks.findById id w >>= _))
  rw [liftTask_bind]
  refine hfind.bind fun task => ?_
  refine OnlyIssues.await (Set.singleton_subset_iff.mpr htasks) fun _ => ?_
  refine OnlyIssues.await (writesTo_none rfl) fun _ => ?_
  refine OnlyIssues.await (writesTo_none rfl) fun _ => ?_
  refine OnlyIssues.await (writesTo_none rfl) fun _ => ?_
  refine OnlyIssues.await (writesTo_none rfl) fun _ => ?_
  refine OnlyIssues.await (writesTo_none rfl) fun _ => ?_
  exact OnlyIssues.await (writesTo_none rfl) fun _ => trivial

/-- A comment is stored, and others than its author told. -/
theorem addComment_writes (w t u message : String) (hcomments : Table.comments ∈ T)
    (hothers : ∀ x, x ≠ u → Table.inbox x ∈ T) :
    OnlyIssues (WritesTo T) (PlatformApi.addComment w t u message) := by
  refine (addComment_issues w t u message).mono ?_
  rintro op (_ | _ | _ | _ | _ | _ | ⟨hother, (_ | _ | _ | _)⟩)
  · exact writesTo_none rfl
  · exact Set.singleton_subset_iff.mpr hcomments
  · exact writesTo_none rfl
  · exact writesTo_none rfl
  · exact writesTo_none rfl
  · exact writesTo_none rfl
  · exact Set.singleton_subset_iff.mpr (hothers _ hother)
  · exact writesTo_none rfl
  · exact writesTo_none rfl
  · exact writesTo_none rfl

/-- **Programs change the tables that they write to.** -/
theorem onlyIn_ensures {pg : Postgres} {α : Type} {p : ApiProg α}
    (hp : OnlyIssues (WritesTo T) p) (s : TaskState) :
    Ensures (apiExec pg) (fun _ s' => OnlyIn T s.db s'.db) p s := by
  have hkeep : ∀ ω op s', WritesTo T op → OnlyIn T s.db s'.db →
      OnlyIn T s.db (apiExec pg ω op s').1.db :=
    fun ω op s' hop h => h.trans ((apiExec_onlyIn pg ω op s').mono hop)
  exact (hp.ensures hkeep (returns_any p) (OnlyIn.refl T s.db)).mono fun _ _ h => h.1

end Programs

end PlatformTables
