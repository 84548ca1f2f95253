import TaskPlatform.QueryAnswers
import TaskPlatform.SharedEditing
import TaskPlatform.TaskNotifications

/-! # Own changes that the client overlooks

    The web client drops what it holds for the tags that its own mutations invalidate.  The
    mutations write more than their tags say: with a project or a workspace go the tasks in
    it, the dashboard counts projects, and whoever is told of something may be the user.  What
    `Overlooks` lists is all that can go wrong (`held_or_overlooked`): an answer that the
    client still holds after requests of its own, and that is not right any more, has been
    made wrong by one of these. -/

namespace PlatformQueries

open AsyncProgram Interleaving PlatformEntities PlatformTasks PlatformApi RowTable
open PlatformLive (Tag)
open PlatformRoutes (PathId)
open PlatformTables

/-! ## What mutations leave alone -/

section Kept

variable {pg : Postgres} {userId : String} {Q : String → String → QueryTaskDto → Prop}
  {s : TaskState}

/-- The end of a call, when the projects have been seen to. -/
theorem projects_after {α : Type} {w : String} {db : Database} {p : ApiProg α}
    (hp : OnlyIssues (WritesTo ∅) p) (hs : projectsOf w s.db = projectsOf w db) :
    Ensures (apiExec pg) (fun _ s' => projectsOf w s'.db = projectsOf w db) p s := by
  refine (onlyIn_ensures hp s).mono fun _ s' h => ?_
  have hprojects : s'.db.projects = s.db.projects := h.same .projects (Set.notMem_empty _)
  rw [← hs, projectsOf, projectsOf, hprojects]

/-- A project is made in its workspace. -/
theorem createProject_elsewhere {w w' name : String} {description : Option String}
    (hw : w' ≠ w) :
    Ensures (apiExec pg) (fun _ s' => projectsOf w' s'.db = projectsOf w' s.db)
      (PlatformApi.createProject w userId name description) s := by
  intro ω
  refine ensures_commit (fun _ => rfl) ?_
  intro db p hp
  obtain ⟨-, -, -, rfl, rfl⟩ := insertProject_ok hp
  refine projects_after (projectLogged_writes _ _ _ _ _ _ _ _) ?_
  exact filter_append_ne s.db.projects (decide_eq_false hw.symm)

/-- A workspace goes with its own projects. -/
theorem deleteWorkspace_elsewhere (hQ : KeysApart Q) (hT : Settled pg.text Q s)
    {w w' : String} (hw : w' ≠ w) :
    Ensures (apiExec pg) (fun _ s' => projectsOf w' s'.db = projectsOf w' s.db)
      (PlatformApi.deleteWorkspace w userId) s := by
  show Ensures _ _ (PlatformApi.findById w >>= _) s
  rw [ensures_bind]
  refine (findWorkspaceById_reads hQ hT w).mono ?_
  rintro out s₁ ⟨-, hdb, rfl⟩
  cases hfound : s.db.workspaces.find? fun x => x.id = w with
  | none => exact congrArg (projectsOf w') hdb
  | some row =>
      have hid : row.id = w := by simpa using List.find?_some hfound
      intro ω
      refine projects_after ((dropWorkspace_writes _ _).bind fun _ =>
        OnlyIssues.await (writesTo_none rfl) fun _ => trivial) ?_
      show (s₁.db.projects.filter fun p => p.workspaceId ≠ row.id).filter _ = _
      rw [hdb, hid, List.filter_filter]
      refine List.filter_congr fun p _ => ?_
      by_cases hp : p.workspaceId = w'
      · simp [hp, hw]
      · simp [hp]

/-- A task that is saved as it was found, but for the columns of an update, stays. -/
theorem saved_hasTask {db db' : Database} {now : Nat} {t : LoadedTask}
    (hids : Unique Task.id db.tasks) (ht : t.row ∈ db.tasks) (hlive : t.row.deletedAt = none)
    {dto : UpdateTaskDto} {completed : Option Nat}
    (h : Saved db now (applyDto t dto completed) db') {id w : String}
    (hhas : HasTask db id w) : HasTask db' id w := by
  obtain ⟨r, hr, hrid, hrw, hrlive⟩ := hhas
  cases h with
  | unchanged row stored wanted => exact ⟨r, hr, hrid, hrw, hrlive⟩
  | inserted new wanted gone keys => exact ⟨r, List.mem_append_left _ hr, hrid, hrw, hrlive⟩
  | updated old new wanted stored writes keys =>
      obtain ⟨hnew, -, hdeleted⟩ := toRow_some wanted
      by_cases hthis : r.id = new.id
      · have hrow : r = t.row := hids.eq_of_key hr ht (hthis.trans hnew.id)
        refine ⟨updateRow now old new, mem_replace.mpr (Or.inl ⟨rfl, r, hr, hthis⟩),
          hthis.symm.trans hrid, ?_, hdeleted.trans hlive⟩
        exact hnew.workspaceId.trans ((congrArg Task.workspaceId hrow.symm).trans hrw)
      · exact ⟨r, mem_replace.mpr (Or.inr ⟨hr, hthis⟩), hrid, hrw, hrlive⟩

theorem hasTask_tasks {db db' : Database} {id w : String} (h : HasTask db id w)
    (htasks : db'.tasks = db.tasks) : HasTask db' id w := by
  rw [HasTask, htasks]
  exact h

/-- An update takes no task away. -/
theorem updateTask_hasTask {pg : PostgresText} (hT : Settled pg Q s) {id w : String}
    {dto : UpdateTaskDto} {id' w' : String} (hhas : HasTask s.db id' w') :
    Ensures (exec pg) (fun _ s' => HasTask s'.db id' w')
      (PlatformTasks.updateTask id w userId dto) s := by
  show Ensures _ _ (PlatformTasks.findById id w >>= updateLoaded id w userId dto) s
  rw [ensures_bind]
  refine (findTask_reads hT id w).mono ?_
  rintro out s₁ ⟨-, hdb, rfl⟩
  cases hfound : findOneTask s.db id w with
  | none => exact hasTask_tasks hhas (congrArg Database.tasks hdb)
  | some t =>
      obtain ⟨-, hmem, -, -, hlive⟩ := findOneTask_some hfound
      show Ensures _ _ (updateLoaded id w userId dto t) s₁
      unfold updateLoaded
      by_cases hversion : versionMismatch dto.version t.row.version = true
      · rw [if_pos hversion]
        exact hasTask_tasks hhas (congrArg Database.tasks hdb)
      · rw [if_neg hversion, ensures_bind]
        refine (quiet_ensures pg (completionTime_quiet dto t) s₁).mono ?_
        rintro (e | completed) s₂ ⟨htasks, -⟩
        · exact hasTask_tasks hhas (htasks.trans (congrArg Database.tasks hdb))
        · have htasks₂ : s₂.db.tasks = s.db.tasks := htasks.trans (congrArg Database.tasks hdb)
          have hhas₂ : HasTask s₂.db id' w' := hasTask_tasks hhas htasks₂
          intro ω
          rcases exec_save_cases pg ω (applyDto t dto completed) s₂ with
            ⟨err, h⟩ | ⟨db, saved, hsaved, h⟩
          · rw [h]
            exact hhas₂
          · rw [h]
            refine (quiet_ensures pg (afterSave_quiet _ _ _ _ _ _) _).mono fun _ _ hkept => ?_
            refine hasTask_tasks ?_ hkept.1
            exact saved_hasTask (htasks₂ ▸ hT.tables.taskIds)
              (htasks₂ ▸ hmem) hlive hsaved hhas₂

/-- A task that no deletion asks for stays. -/
theorem taskCall_hasTask {pg : PostgresText} (hQ : KeysApart Q) (hT : Settled pg Q s)
    {c : TaskCall} (hasked : ∀ w p q, c = .getTasks w p q → Q w p q) {id w : String}
    (hc : ∀ u, c ≠ .deleteTask id w u) (hhas : HasTask s.db id w) :
    Ensures (exec pg) (fun _ s' => HasTask s'.db id w) c.prog s := by
  obtain ⟨r, hr, rfl, rfl, hlive⟩ := hhas
  cases hchange : PlatformEditing.Change.ofCall r.id r.workspaceId c with
  | none =>
      refine (PlatformEditing.call_elsewhere hQ hT hr hasked hchange).mono fun _ s' hr' => ?_
      exact ⟨r, hr', rfl, rfl, hlive⟩
  | some change =>
      cases c with
      | updateTask id' w' u dto => exact updateTask_hasTask hT ⟨r, hr, rfl, rfl, hlive⟩
      | deleteTask id' w' u =>
          by_cases hthis : id' = r.id ∧ w' = r.workspaceId
          · obtain ⟨rfl, rfl⟩ := hthis
            exact absurd rfl (hc u)
          · rw [PlatformEditing.Change.ofCall, if_neg hthis] at hchange
            cases hchange
      | createTask w' p u dto => cases hchange
      | getTasks w' p q => cases hchange
      | findById id' w' => cases hchange

/-! ### Whom it is told to -/

/-- All tables but the notifications of the user. -/
def others (userId : String) : Set Table := {t | t ≠ .inbox userId}

theorem inbox_others {u userId : String} (h : u ≠ userId) : Table.inbox u ∈ others userId := by
  intro hsame
  injection hsame with hsame
  exact h hsame

theorem inbox_kept {db db' : Database} (h : OnlyIn (others userId) db db') :
    inboxOf userId db' = inboxOf userId db :=
  h.same (.inbox userId) fun hmem => hmem rfl

/-- The assignee that an update leaves in the object, if it is another one, is the one that
    the request names. -/
theorem assigned_of_changes {db : Database} {t : LoadedTask} {dto : UpdateTaskDto}
    {completed : Option Nat} {saved : TaskEntity} (hids : Unique Task.id db.tasks)
    (hmem : t.row ∈ db.tasks) (hload : t = loadTask db t.row)
    (hback : HandedBack db (applyDto t dto completed) saved)
    (hchanges : assigneeChanges dto t = true) {x : String}
    (hx : truthy saved.row.assignedTo = some x) : dto.assignedTo = .val x := by
  obtain ⟨hassigned, -⟩ := truthy_eq_some.mp hx
  rw [assigneeChanges, Bool.and_eq_true, decide_eq_true_eq] at hchanges
  cases hassignee : t.assignee with
  | none =>
      rw [hback.unassigned hassignee] at hassigned
      cases hassigned
  | some u =>
      -- the relation was loaded with the row, which is still there
      have hstored : t.row.assignedTo = some u.id := by
        rw [hload] at hassignee
        obtain ⟨y, hy, hfound⟩ := Option.bind_eq_some_iff.mp hassignee
        obtain ⟨row, hrow, rfl⟩ := Option.map_eq_some_iff.mp hfound
        have hid : row.id = y := by simpa using List.find?_some hrow
        exact hy.trans (congrArg some hid.symm)
      have hgiven : saved.row.assignedTo = dto.assignedTo.assign t.row.assignedTo :=
        hback.assigned u hassignee ⟨t.row, lookup_eq_some hids hmem rfl, hstored⟩
      rw [hgiven] at hassigned
      cases hfield : dto.assignedTo with
      | undefined => exact absurd hfield hchanges.1
      | null =>
          rw [hfield] at hassigned
          cases hassigned
      | val y =>
          rw [hfield] at hassigned
          exact congrArg Field.val (Option.some.inj hassigned)

/-- An update tells its user of nothing but a task that it assigns to the user. -/
theorem updateTask_inbox (hT : Settled pg.text Q s) {id w : String} {dto : UpdateTaskDto}
    (hdto : dto.assignedTo ≠ .val userId) :
    Ensures (exec pg.text) (fun _ s' => inboxOf userId s'.db = inboxOf userId s.db)
      (PlatformTasks.updateTask id w userId dto) s := by
  have hsame : ∀ {db : Database}, db = s.db → inboxOf userId db = inboxOf userId s.db :=
    fun h => congrArg (inboxOf userId) h
  show Ensures _ _ (PlatformTasks.findById id w >>= updateLoaded id w userId dto) s
  rw [ensures_bind]
  refine (findTask_reads hT id w).mono ?_
  rintro out s₁ ⟨-, hdb, rfl⟩
  cases hfound : findOneTask s.db id w with
  | none => exact hsame hdb
  | some t =>
      obtain ⟨hload, hmem, -, -, -⟩ := findOneTask_some hfound
      show Ensures _ _ (updateLoaded id w userId dto t) s₁
      unfold updateLoaded
      by_cases hversion : versionMismatch dto.version t.row.version = true
      · rw [if_pos hversion]
        exact hsame hdb
      · rw [if_neg hversion, ensures_bind]
        refine (mute_ensures pg.text (completionTime_mute dto t) s₁).mono ?_
        rintro (e | completed) s₂ hdb₂
        · exact hsame (hdb₂.trans hdb)
        · intro ω
          have hsave : inboxOf userId
              (exec pg.text ω (.save (applyDto t dto completed)) s₂).1.db
                = inboxOf userId s.db := by
            have honly := exec_onlyIn pg.text ω (.save (applyDto t dto completed)) s₂
            refine (inbox_kept (honly.mono ?_)).trans (hsame (hdb₂.trans hdb))
            exact Set.singleton_subset_iff.mpr fun h => by cases h
          cases hout : (exec pg.text ω (.save (applyDto t dto completed)) s₂).2 with
          | error e => exact hsave
          | ok saved =>
              have hback := exec_save_handsBack pg.text hout
              rw [hdb₂, hdb] at hback
              have hrest : OnlyIssues (WritesTo (others userId))
                  (liftTask (afterSave id w userId dto t saved)) := by
                refine afterSave_writes id w userId dto t saved (fun x => inbox_others) ?_
                intro hchanges x hx
                refine inbox_others fun hself => hdto ?_
                rw [← hself]
                exact assigned_of_changes hT.tables.taskIds hmem hload hback hchanges hx
              have hends : ∀ s', Ensures (exec pg.text)
                  (fun _ s'' => OnlyIn (others userId) s'.db s''.db)
                  (afterSave id w userId dto t saved) s' := by
                intro s'
                exact ensures_lift.mp (onlyIn_ensures hrest s')
              exact (hends _).mono fun _ _ honly => (inbox_kept honly).trans hsave

/-- Nor does an invitation, unless the user is invited. -/
theorem inviteMember_inbox {w email : String} {role : Role}
    (hother : ∀ u ∈ s.db.users, u.email = email → u.id ≠ userId) :
    Ensures (apiExec pg) (fun _ s' => inboxOf userId s'.db = inboxOf userId s.db)
      (PlatformApi.inviteMember w userId email role) s := by
  show Ensures _ _ (PlatformApi.findById w >>= _) s
  rw [ensures_bind]
  have hfind : OnlyIssues (WritesTo (others userId)) (PlatformApi.findById w) :=
    findById_writes w
  refine (onlyIn_ensures hfind s).mono ?_
  rintro (e | workspace) s₁ honly
  · exact inbox_kept honly
  · intro ω
    have hinbox : inboxOf userId (s₁.wait ω).db = inboxOf userId s.db := inbox_kept honly
    show Ensures _ _ (orNotFound _ ((s₁.db.users.find? fun u => u.email = email).map User.view)
      >>= _) (s₁.wait ω)
    cases hfound : s₁.db.users.find? fun u => u.email = email with
    | none => exact hinbox
    | some row =>
        have hrow : row ∈ s.db.users := honly.users ▸ List.mem_of_find?_eq_some hfound
        have hemail : row.email = email := by simpa using List.find?_some hfound
        have huser : Table.inbox row.view.id ∈ others userId :=
          inbox_others (hother row hrow hemail)
        intro ω'
        cases hmember : (apiExec pg ω' (.findMember w row.view.id) (s₁.wait ω)).2 with
        | some m => exact hinbox
        | none =>
            have hmembers : Table.members ∈ others userId := fun h => by cases h
            have hrest := invited_writes w userId email role workspace row.view hmembers huser
            have hends : ∀ s', Ensures (apiExec pg)
                (fun _ s'' => OnlyIn (others userId) s'.db s''.db) _ s' :=
              fun s' => onlyIn_ensures hrest s'
            exact (hends _).mono fun _ _ h => (inbox_kept h).trans hinbox

end Kept

/-! ## What the tags overlook -/

/-- The answers that a mutation of this user may make wrong without dropping them.  With a
    project or a workspace go tasks, wherever they are: those in it, and all that hang below
    them. -/
def Overlooks (users : List User) (userId : String) : Mutation → Query → Prop
  | .createProject w _ _, .getDashboardMetrics w' => w' = w
  | .deleteTask w t, .getComments w' t' => w' = w ∧ t' = t
  | .deleteProject _ _, q => .tasks ∈ q.reads userId
  | .deleteWorkspace w, .getProjects w' => w' = w
  | .deleteWorkspace _, q => .tasks ∈ q.reads userId
  | .createTask _ _ dto, .getNotifications => dto.assignedTo = some userId
  | .updateTask _ _ dto, .getNotifications => dto.assignedTo = .val userId
  | .inviteWorkspaceMember _ email _, .getNotifications =>
      ∃ u ∈ users, u.email = email ∧ u.id = userId
  | _, _ => False

/-- The tags do not meet where the mutation writes to a table that is read. -/
def Suspect (userId : String) : Mutation → Query → Prop
  | .createProject _ _ _, .getDashboardMetrics _ => True
  | .updateProject _ _ _ _ _, .getDashboardMetrics _ => True
  | .createTask _ _ _, .getComments _ _ => True
  | .updateTask _ _ _, .getComments _ _ => True
  | .deleteTask _ _, .getComments _ _ => True
  | .deleteProject _ _, q => .tasks ∈ q.reads userId
  | .deleteWorkspace _, .getProjects _ => True
  | .deleteWorkspace _, q => .tasks ∈ q.reads userId
  | .createTask _ _ dto, .getNotifications => dto.assignedTo = some userId
  | .updateTask _ _ _, .getNotifications => True
  | .inviteWorkspaceMember _ _ _, .getNotifications => True
  | _, _ => False

section Overlooked

variable {b : Backend} {Q : String → String → QueryTaskDto → Prop} {s : TaskState}

theorem suspect_of_kept {m : Mutation} {q : Query}
    (hkept : (service b).drops (.mutation m) q = false)
    (htouched : ¬ ∀ t ∈ q.reads b.userId, t ∉ m.writes b.userId) : Suspect b.userId m q := by
  cases m <;> cases q <;>
    simp_all [Suspect, Query.reads, Mutation.writes, inboxes, TagCache.Service.drops, service,
      Query.providesTags, Request.invalidatesTags, Mutation.invalidatesTags, Tag.invalidates]

/-- The comments on a task are right after every task call that does not delete it. -/
theorem comments_stay (hQ : KeysApart Q) (hT : Settled b.pg.text Q s) {m : Mutation}
    (hm : m.Spelled b) {c : TaskCall}
    (hprog : m.handlerProg b.userId = Reply.task <$> liftTask c.prog)
    (hwrites : Table.comments ∉ m.writes b.userId)
    (hasked : ∀ w p q, c = .getTasks w p q → Q w p q)
    {w t : PathId} (hc : ∀ u, c ≠ .deleteTask t.text w.text u) {now : Nat → Int} {a : Answer}
    (hright : (Query.getComments w t).answer b now s.db = some a) (ω : Nat → Choice) :
    (Query.getComments w t).answer b now (after b m ω s).db = some a := by
  refine comments_kept (performed_onlyIn hm ω) hwrites hright fun hhas => ?_
  refine performed (R := fun s' => HasTask s'.db t.text w.text) hm hhas ?_ ω
  rw [hprog]
  exact ensures_map.mpr (ensures_lift.mpr (taskCall_hasTask hQ hT hasked hc hhas))

/-- The notifications are right after everything that leaves those of the user alone. -/
theorem notifications_stay {m : Mutation} (hm : m.Spelled b)
    (h : Ensures (apiExec b.pg)
      (fun _ s' => inboxOf b.userId s'.db = inboxOf b.userId s.db) (m.handlerProg b.userId) s)
    {now : Nat → Int} {a : Answer}
    (hright : Query.getNotifications.answer b now s.db = some a) (ω : Nat → Choice) :
    Query.getNotifications.answer b now (after b m ω s).db = some a := by
  have hinbox : inboxOf b.userId (after b m ω s).db = inboxOf b.userId s.db :=
    performed (R := fun s' => inboxOf b.userId s'.db = inboxOf b.userId s.db) hm rfl h ω
  rw [notifications_kept hinbox]
  exact hright

/-- **What is missed is overlooked.** -/
theorem missed_overlooks (hQ : KeysApart Q) (hT : Settled b.pg.text Q s) {m : Mutation} {q : Query}
    (hm : m.Spelled b) {a : Answer} {ω : Nat → Choice}
    (hkept : (service b).drops (.mutation m) q = false) (hright : q.Right b s.db a)
    (hwrong : ¬ q.Right b (after b m ω s).db a) : Overlooks s.db.users b.userId m q := by
  have honly : OnlyIn (m.writes b.userId) s.db (after b m ω s).db := performed_onlyIn hm ω
  have hsuspect : Suspect b.userId m q := by
    refine suspect_of_kept hkept fun hq => hwrong ?_
    exact (answer_same honly hq).trans hright
  cases m with
  | createProject w name description =>
      cases q with
      | getDashboardMetrics w' =>
          by_contra hother
          have htext : w'.text ≠ w.text := fun htext => hother (PathId.ext htext)
          refine hwrong ((metrics_kept honly ?_).trans hright)
          refine performed (R := fun s' => projectsOf w'.text s'.db = projectsOf w'.text s.db)
            hm rfl ?_ ω
          exact ensures_map.mpr (createProject_elsewhere htext)
      | _ => exact hsuspect.elim
  | updateProject w id name description status =>
      rw [performed_unrouted (m := .updateProject w id name description status) rfl] at hwrong
      exact absurd hright hwrong
  | createTask w p dto =>
      cases q with
      | getComments w' t' =>
          have hcomments : Table.comments ∉ (Mutation.createTask w p dto).writes b.userId := by
            simp [Mutation.writes]
          exact absurd (comments_stay hQ hT hm (c := .createTask w.text p.text b.userId dto) rfl
            hcomments (fun _ _ _ h => by cases h) (fun _ h => by cases h) hright ω) hwrong
      | getNotifications => exact hsuspect
      | _ => exact hsuspect.elim
  | updateTask w t dto =>
      cases q with
      | getComments w' t' =>
          have hcomments : Table.comments ∉ (Mutation.updateTask w t dto).writes b.userId := by
            simp [Mutation.writes, inboxes]
          exact absurd (comments_stay hQ hT hm (c := .updateTask t.text w.text b.userId dto) rfl
            hcomments (fun _ _ _ h => by cases h) (fun _ h => by cases h) hright ω) hwrong
      | getNotifications =>
          by_contra hother
          refine hwrong (notifications_stay hm ?_ hright ω)
          exact ensures_map.mpr (ensures_lift.mpr (updateTask_inbox hT hother))
      | _ => exact hsuspect.elim
  | deleteTask w t =>
      cases q with
      | getComments w' t' =>
          by_contra hother
          have htext : ∀ u, TaskCall.deleteTask t.text w.text b.userId
              ≠ .deleteTask t'.text w'.text u := by
            intro u h
            injection h with ht hw
            exact hother ⟨PathId.ext hw.symm, PathId.ext ht.symm⟩
          have hcomments : Table.comments ∉ (Mutation.deleteTask w t).writes b.userId := by
            simp [Mutation.writes]
          exact hwrong (comments_stay hQ hT hm (c := .deleteTask t.text w.text b.userId) rfl
            hcomments (fun _ _ _ h => by cases h) htext hright ω)
      | _ => exact hsuspect.elim
  | deleteProject w id => exact hsuspect
  | deleteWorkspace w =>
      cases q with
      | getProjects w' =>
          by_contra hother
          have htext : w'.text ≠ w.text := fun htext => hother (PathId.ext htext)
          refine hwrong ((projects_kept ?_).trans hright)
          refine performed (R := fun s' => projectsOf w'.text s'.db = projectsOf w'.text s.db)
            hm rfl ?_ ω
          exact ensures_map.mpr (deleteWorkspace_elsewhere hQ hT htext)
      | _ => exact hsuspect
  | inviteWorkspaceMember w email role =>
      cases q with
      | getNotifications =>
          by_contra hother
          refine hwrong (notifications_stay hm ?_ hright ω)
          refine ensures_map.mpr (inviteMember_inbox fun u hu hemail hid => hother ?_)
          exact ⟨u, hu, hemail, hid⟩
      | _ => exact hsuspect.elim
  | _ => exact hsuspect.elim

end Overlooked

/-! ## Runs -/

/-- Ids are spelled as the columns spell them, lists are asked for as `Q` has it, new ids are
    uuids, and nothing is left in Redis of what a cascade deletes. -/
def Allows (b : Backend) (Q : String → String → QueryTaskDto → Prop)
    (world : TagCache.World TaskState Query Answer) :
    TagCache.Event Choice Query Request → Prop
  | .ask q _ => q.Asks Q ∧ q.Spelled b.uuid
  | .release _ => True
  | .change (.mutation m) ω =>
      m.Spelled b ∧ Along (apiExec b.pg) (Allowed b.pg Q) ω (m.prog b) world.server
  | .change _ _ => True

section Runs

variable {b : Backend} {Q : String → String → QueryTaskDto → Prop}

/-- What a run keeps: Redis holds answers of the database only, and the users are these. -/
structure Steady (b : Backend) (Q : String → String → QueryTaskDto → Prop) (users : List User)
    (s : TaskState) : Prop where
  settled : Settled b.pg.text (Running Q) s
  users : s.db.users = users

theorem service_sound (hQ : KeysApart Q) (users : List User) :
    (service b).Sound (Steady b Q users) (Allows b Q) where
  asked world q ω hT hq := by
    obtain ⟨hT', hdb, hanswer⟩ : _ ∧ _ ∧ (q.serve b ω world.server).2 = _ :=
      serve_ends hQ hT.settled hq.1 hq.2 ω
    refine ⟨fun a ha => ?_, fun q' a ha => ?_, hT',
      (congrArg Database.users hdb).trans hT.users⟩
    · show q.Right b (q.serve b ω world.server).1.db a
      rw [hdb]
      exact right_of_answer (hanswer.symm.trans ha)
    · show q'.Right b (q.serve b ω world.server).1.db a
      rw [hdb]
      exact ha
  performed world r ω hT hω := by
    have hmark : (∀ m, r ≠ .mutation m) → Steady b Q users (r.perform b ω world.server) := by
      intro hr
      have hset := marks_set hT.settled hr ω
      exact ⟨hset.settled, hset.onlyIn.users.trans hT.users⟩
    cases r with
    | mutation m =>
        exact ⟨performed_settled hQ hT.settled hω.1 hω.2,
          (performed_onlyIn hω.1 ω).users.trans hT.users⟩
    | markNotificationRead id => exact hmark fun m h => Request.noConfusion h
    | markAllNotificationsRead => exact hmark fun m h => Request.noConfusion h

/-- A mark is never missed. -/
theorem mark_heard {s : TaskState} (hT : Settled b.pg.text Q s) {r : Request}
    (hr : ∀ m, r ≠ .mutation m) {q : Query} (hkept : (service b).drops r q = false) {a : Answer}
    (hright : q.Right b s.db a) (ω : Nat → Choice) : q.Right b (r.perform b ω s).db a := by
  refine (answer_same (marks_set hT hr ω).onlyIn fun t ht hmem => ?_).trans hright
  obtain ⟨u, rfl⟩ := hmem
  have hq : q = .getNotifications := by
    cases q <;> simp_all [Query.reads]
  subst hq
  cases r with
  | mutation m => exact hr m rfl
  | markNotificationRead id => cases hkept
  | markAllNotificationsRead => cases hkept

/-- What is missed has been missed by a mutation that overlooks it. -/
theorem missed_by_mutation (hQ : KeysApart Q) {users : List User}
    {world : TagCache.World TaskState Query Answer} (hT : Steady b Q users world.server)
    {r : Request} {ω : Nat → Choice} (hr : Allows b Q world (.change r ω))
    {q : Query} {a : Answer}
    (hmissed : (service b).Missed world r ω q a) :
    ∃ m, r = .mutation m ∧ Overlooks users b.userId m q := by
  by_cases hmutation : ∃ m, r = .mutation m
  · obtain ⟨m, rfl⟩ := hmutation
    refine ⟨m, rfl, ?_⟩
    rw [← hT.users]
    exact missed_overlooks hQ.running hT.settled hr.1 hmissed.kept hmissed.right hmissed.wrong
  · have hmark : ∀ m, r ≠ .mutation m := fun m h => hmutation ⟨m, h⟩
    exact absurd (mark_heard hT.settled hmark hmissed.kept hmissed.right ω) hmissed.wrong

end Runs

/-- **Held answers are right, or overlooked.**  In every run of queries and mutations of one
    client, an answer that it holds is what the database holds now, unless one of its own
    mutations has made it wrong that overlooks it. -/
theorem held_or_overlooked (b : Backend) (Q : String → String → QueryTaskDto → Prop)
    (hQ : KeysApart Q) (s : TaskState) (hT : Settled b.pg.text (Running Q) s)
    (l : List (TagCache.Event Choice Query Request))
    (hl : EventRuns.Throughout (service b).step (Allows b Q) ⟨s, fun _ => none⟩ l) (q : Query)
    (a : Answer)
    (h : (EventRuns.play (service b).step ⟨s, fun _ => none⟩ l).held q = some a) :
    q.Right b (EventRuns.play (service b).step ⟨s, fun _ => none⟩ l).server.db a ∨
      ∃ before m ω after, l = before ++ .change (.mutation m) ω :: after ∧
        Overlooks s.db.users b.userId m q ∧
        (service b).Missed
          (EventRuns.play (service b).step ⟨s, fun _ => none⟩ before) (.mutation m) ω q a := by
  have hsound : (service b).Sound (Steady b Q s.db.users) (Allows b Q) :=
    service_sound hQ s.db.users
  have hstart : Steady b Q s.db.users s := ⟨hT, rfl⟩
  rcases hsound.held_or_missed hstart (fun _ _ hheld => by cases hheld) hl h with
    hright | ⟨before, r, ω, after, rfl, hmissed⟩
  · exact Or.inl hright
  · obtain ⟨hbefore, hchange, -⟩ := EventRuns.throughout_append.mp hl
    have hstep : ∀ world e, Steady b Q s.db.users (TagCache.World.server world) →
        Allows b Q world e → Steady b Q s.db.users ((service b).step world e).server :=
      fun _ _ hw he => hsound.step hw he
    have hsteady := EventRuns.Throughout.play hstep hbefore hstart
    obtain ⟨m, rfl, hoverlooks⟩ := missed_by_mutation hQ hsteady hchange hmissed
    exact Or.inr ⟨before, m, ω, after, rfl, hoverlooks, hmissed⟩

/-- Alice works in the office. -/
def alicesClient : Backend where
  pg := plainPostgres
  session := plainSession
  uuid := some
  createdAt _ := 0
  userId := "a"
  spelled := rfl

/-- The workspace of the office, and its project. -/
def officeId : PathId :=
  ⟨"w", by decide, PathId.plain_of_all (by decide), by decide +kernel⟩

/-- A project id. -/
def projectId : PathId :=
  ⟨"p", by decide, PathId.plain_of_all (by decide), by decide +kernel⟩

/-- The dashboard is shown, and then a project is made. -/
def secondProject : List (TagCache.Event Choice Query Request) :=
  [.ask .getNotifications (fun _ => {}), .ask (.getDashboardMetrics officeId) (fun _ => {}),
    .change (.mutation (.createProject officeId "Move" none)) (named "2")]

/-- The notifications are shown, and then Alice takes a new task. -/
def taskForAlice : List (TagCache.Event Choice Query Request) :=
  [.ask .getNotifications (fun _ => {}),
    .change (.mutation
      (.createTask officeId projectId { title := "Plan", assignedTo := some "a" })) (named "1")]

/-- The restriction to no list at all. -/
def noLists (w p : String) (query : QueryTaskDto) : Prop :=
  (w, p, query) ∈ ([] : List (String × String × QueryTaskDto))

instance (ω : Choice) (op : ApiOp) (s : TaskState) :
    Decidable (Allowed plainPostgres noLists ω op s) :=
  inferInstanceAs (Decidable (GlobPattern.Plain ω.newId ∧
    NothingLeft plainPostgres.text (fun w p q => (w, p, q) ∈ []) ω op s))

theorem noLists_apart : KeysApart noLists :=
  ⟨fun _ _ _ h => absurd h List.not_mem_nil,
    fun _ _ _ _ _ _ h _ => absurd h List.not_mem_nil⟩

theorem office_settled : Settled plainText (Running noLists) office :=
  ⟨office_keyed, fun k v hk => by cases hk⟩

/-- What the dashboard of the office shows. -/
def oneProject : DashboardSummary where
  totalTasks := 0
  completedTasks := 0
  overdueTasks := 0
  upcomingTasks := 0
  totalProjects := 1
  completionRate := some 0
  statusDistribution := []
  priorityDistribution := []
  memberProductivity := []

/-- It still counts one project, and there is still nothing new for Alice. -/
theorem dashboard_overlooked :
    (∃ before m ω after, secondProject = before ++ .change (.mutation m) ω :: after ∧
      Overlooks office.db.users "a" m (.getDashboardMetrics officeId) ∧
      (service alicesClient).Missed
        (EventRuns.play (service alicesClient).step ⟨office, fun _ => none⟩ before)
        (.mutation m) ω (.getDashboardMetrics officeId)
        (.metrics (clock (fun _ => {}) (office.wait {})) oneProject)) ∧
    ∃ before m ω after, taskForAlice = before ++ .change (.mutation m) ω :: after ∧
      Overlooks office.db.users "a" m .getNotifications ∧
      (service alicesClient).Missed
        (EventRuns.play (service alicesClient).step ⟨office, fun _ => none⟩ before)
        (.mutation m) ω .getNotifications (.notifications []) := by
  constructor
  · refine (held_or_overlooked alicesClient noLists noLists_apart office office_settled
      secondProject ⟨⟨trivial, fun x hx => rfl⟩, ⟨trivial, fun x hx => rfl⟩,
        ⟨fun x hx => rfl, ?_⟩, trivial⟩ (.getDashboardMetrics officeId) _ ?_).resolve_left ?_
    · show Along (apiExec plainPostgres) (Allowed plainPostgres noLists) (named "2")
        (Mutation.prog alicesClient _) _
      rw [Mutation.prog_eq]
      decide +kernel
    · rfl
    · intro hright
      unfold Query.Right Query.answer at hright
      obtain ⟨summary, hsummary, hsame⟩ := Option.map_eq_some_iff.mp hright
      injection hsame with _ hsame
      rw [hsame] at hsummary
      exact absurd (congrArg (Option.map DashboardSummary.totalProjects) hsummary)
        (by decide +kernel)
  · refine (held_or_overlooked alicesClient noLists noLists_apart office office_settled
      taskForAlice ⟨⟨trivial, fun x hx => rfl⟩, ⟨fun x hx => rfl, ?_⟩, trivial⟩
      .getNotifications _ ?_).resolve_left ?_
    · show Along (apiExec plainPostgres) (Allowed plainPostgres noLists) (named "1")
        (Mutation.prog alicesClient _) _
      rw [Mutation.prog_eq]
      decide +kernel
    · have hnone : PlatformInbox.findRows ⟨office, fun _ => 0⟩ "a" none = [] :=
        List.mergeSort_nil
      exact congrArg (fun rows => some (Answer.notifications rows)) hnone
    · intro hright
      injection hright with hright
      injection hright with hrows
      have hlength := congrArg List.length hrows
      rw [PlatformInbox.findRows, List.length_mergeSort] at hlength
      exact absurd hlength (by decide +kernel)

end PlatformQueries
