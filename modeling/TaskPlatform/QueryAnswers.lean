import TaskPlatform.ClientQueries
import TaskPlatform.TableWrites

/-! # What the client asks for, and what its requests change

    Every query comes back with what the database holds and leaves it as it is (`serve_ends`).
    A mutation writes to certain tables only (`performed_onlyIn`), and an answer changes with
    the tables that it is read from (`answer_same`).

    The figures of the dashboard are those of the time when it was asked for.  Two of them
    are out of date as soon as a task falls due (`figures_age`). -/

namespace PlatformQueries

open AsyncProgram Interleaving PlatformEntities PlatformTasks PlatformApi RowTable
open PlatformLive (Tag)
open PlatformRoutes (PathId)
open PlatformTables

/-! ## The service -/

section Service

variable (b : Backend)

/-- The service, as one client uses it: one request after the other. -/
def service : TagCache.Service TaskState Choice Query Answer Request Tag where
  right s q a := q.Right b s.db a
  ask ω q s := q.serve b ω s
  perform ω r s := r.perform b ω s
  provides := Query.providesTags
  invalidates := Request.invalidatesTags
  covers := Tag.invalidates

/-- The lists of tasks that are asked for are in `Q`, and those of projects go by the id of
    a workspace. -/
def Query.Asks (Q : String → String → QueryTaskDto → Prop) : Query → Prop
  | .getProjects w => IsId w.text
  | .getTasks w p params => Q w.text p.text params
  | _ => True

end Service

section Served

variable {b : Backend} {Q : String → String → QueryTaskDto → Prop} {s : TaskState}

theorem waits_settled {pg : PostgresText} {dirty : String → Prop} (hT : Transparent pg Q dirty s)
    (ω : Nat → Choice) (n : Nat) :
    Transparent pg Q dirty (waits ω n s) ∧ (waits ω n s).db = s.db := by
  induction n with
  | zero => exact ⟨hT, rfl⟩
  | succ n ih => exact ⟨ih.1.wait (ω n), ih.2⟩

theorem served_ends {p : ApiProg Reply} {result : Except HttpError Reply}
    (h : Ensures (apiExec b.pg) (ReadEnds b.pg.text Q s.db result) p s) (ω : Nat → Choice) :
    Settled b.pg.text Q (served b p ω s).1 ∧ (served b p ω s).1.db = s.db ∧
      (served b p ω s).2 = result.toOption.map Answer.reply := by
  have hne : Nonempty Choice := ⟨{}⟩
  obtain ⟨hT, hdb, hout⟩ := (ensures_iff _ _ _).mp h ω
  exact ⟨hT, hdb, congrArg (fun out => out.toOption.map Answer.reply) hout⟩

/-- A cached read, of whatever query. -/
theorem read_served (hQ : KeysApart Q) (hT : Settled b.pg.text (Running Q) s) {read : CachedRead}
    (hread : Asked Q read) (hspelled : read.call.Spelled b.uuid) (ω : Nat → Choice) :
    Settled b.pg.text (Running Q) (served b (read.call.byValue b.uuid) ω s).1 ∧
      (served b (read.call.byValue b.uuid) ω s).1.db = s.db ∧
      (served b (read.call.byValue b.uuid) ω s).2
        = (read.outcomeByValue b.pg.text s.db).toOption.map Answer.reply :=
  served_ends (read_byValue hQ hT hread hspelled) ω

theorem getTree_ends (hT : Settled b.pg.text Q s) (t w : String) :
    Ensures (apiExec b.pg) (ReadEnds b.pg.text Q s.db
      ((hierarchy s.db b.pg.order .tree t w).map Reply.hierarchy)) (getTree t w) s := by
  intro ω
  show Ensures _ _ (Reply.hierarchy <$> orThrow (hierarchy s.db b.pg.order .tree t w)) (s.wait ω)
  cases hierarchy s.db b.pg.order .tree t w with
  | error e => exact ⟨hT.wait ω, rfl, rfl⟩
  | ok h => exact ⟨hT.wait ω, rfl, rfl⟩

theorem getComments_ends (hT : Settled b.pg.text Q s) (t w : String) :
    Ensures (apiExec b.pg) (ReadEnds b.pg.text Q s.db
      ((CachedRead.orMissing "Task not found in this workspace"
        (findTask s.db t w)).map fun _ => .comments (findComments s.db t)))
      (Reply.comments <$> PlatformApi.getComments t w) s := by
  refine ensures_map.mpr fun ω => ?_
  show Ensures _ _ (orNotFound _ (findTask s.db t w) >>= _) (s.wait ω)
  cases findTask s.db t w with
  | none => exact ⟨hT.wait ω, rfl, rfl⟩
  | some task => exact fun ω' => ⟨(hT.wait ω).wait ω', rfl, rfl⟩

/-- **Queries come back with what the database holds**, and leave it as it is. -/
theorem serve_ends (hQ : KeysApart Q) (hT : Settled b.pg.text (Running Q) s) {q : Query}
    (hq : q.Asks Q) (hspelled : q.Spelled b.uuid) (ω : Nat → Choice) :
    Settled b.pg.text (Running Q) (q.serve b ω s).1 ∧ (q.serve b ω s).1.db = s.db ∧
      (q.serve b ω s).2 = q.answer b (clock ω s) s.db := by
  cases q with
  | getWorkspaces => exact ⟨hT.wait _, rfl, rfl⟩
  | getNotifications => exact ⟨hT.wait _, rfl, rfl⟩
  | getWorkspaceMembers w =>
      have hplain : (ApiCall.getMembers w.text).byValue b.uuid = (ApiCall.getMembers w.text).prog :=
        byValue_spelled hspelled _
      show Settled _ _ (served b ((ApiCall.getMembers w.text).byValue b.uuid) ω s).1 ∧
        (served b ((ApiCall.getMembers w.text).byValue b.uuid) ω s).1.db = s.db ∧
          (served b ((ApiCall.getMembers w.text).byValue b.uuid) ω s).2 = _
      rw [hplain]
      exact ⟨hT.wait _, rfl, rfl⟩
  | getProjects w =>
      have hread : Asked Q (.projects w.text) := hq
      exact read_served hQ hT hread hspelled ω
  | getTasks w p params =>
      have hread : Asked Q (.tasks w.text p.text params) := hq
      obtain ⟨hT', hdb, hout⟩ := read_served hQ hT hread hspelled ω
      refine ⟨hT', hdb, hout.trans ?_⟩
      have hall : (CachedRead.tasks w.text p.text params).call.queries.all QueryTaskDto.runs
          = params.runs := Bool.and_true _
      rw [CachedRead.outcomeByValue, hall]
      show Option.map _ (Except.toOption _) = (if params.runs = true then _ else none)
      by_cases hruns : params.runs = true
      · rw [if_pos hruns, if_pos hruns]
        rfl
      · rw [if_neg hruns, if_neg hruns]
        rfl
  | getTaskById w t =>
      have hread : Asked Q (.task t.text w.text) := trivial
      obtain ⟨hT', hdb, hout⟩ := read_served hQ hT hread hspelled ω
      refine ⟨hT', hdb, hout.trans ?_⟩
      have hruns : (CachedRead.task t.text w.text).outcomeByValue b.pg.text s.db
          = (CachedRead.task t.text w.text).outcome b.pg.text s.db := if_pos rfl
      rw [hruns]
      simp only [CachedRead.outcome, Query.answer]
      cases findOneTask s.db t.text w.text with
      | none => rfl
      | some task => rfl
  | getSubtaskTree w t =>
      obtain ⟨hT', hdb, hout⟩ := served_ends (getTree_ends hT t.text w.text) ω
      rw [Query.serve, byValue_spelled hspelled]
      refine ⟨hT', hdb, hout.trans ?_⟩
      simp only [Query.answer]
      cases hierarchy s.db b.pg.order .tree t.text w.text with
      | error e => rfl
      | ok h => rfl
  | getComments w t =>
      obtain ⟨hT', hdb, hout⟩ := served_ends (getComments_ends hT t.text w.text) ω
      rw [Query.serve, byValue_spelled hspelled]
      refine ⟨hT', hdb, hout.trans ?_⟩
      simp only [Query.answer]
      cases findTask s.db t.text w.text with
      | none => rfl
      | some task => rfl
  | getDashboardMetrics w =>
      have hw : b.uuid w.text = some w.text := hspelled w.text (List.mem_singleton.mpr rfl)
      obtain ⟨hT', hdb⟩ := waits_settled hT ω 6
      show Settled _ _ (serveDashboard b w.text ω s).1 ∧
        (serveDashboard b w.text ω s).1.db = _ ∧
        (serveDashboard b w.text ω s).2 = _
      rw [serveDashboard, hw]
      exact ⟨hT', hdb, rfl⟩

/-- What was answered is right, for the times at which it was worked out. -/
theorem right_of_answer {now : Nat → Int} {db : Database} {q : Query} {a : Answer}
    (h : q.answer b now db = some a) : q.Right b db a := by
  cases q with
  | getDashboardMetrics w =>
      obtain ⟨summary, -, ha⟩ := Option.map_eq_some_iff.mp h
      rw [← ha] at h ⊢
      exact h
  | _ => exact h

end Served

/-- Of the figures of the dashboard, two go with the time. -/
theorem figures_age {session : DashboardSession} {tables : DashboardTables}
    {now now' : Nat → Int} {w : String} {summary summary' : DashboardSummary}
    (h : getSummary session tables now w = .ok summary)
    (h' : getSummary session tables now' w = .ok summary') :
    summary' = { summary with
      overdueTasks := summary'.overdueTasks
      upcomingTasks := summary'.upcomingTasks } := by
  obtain ⟨projects, hprojects, h⟩ := ok_of_bind h
  obtain ⟨statuses, hstatuses, h⟩ := ok_of_bind h
  obtain ⟨overdue, -, h⟩ := ok_of_bind h
  obtain ⟨upcoming, -, h⟩ := ok_of_bind h
  obtain ⟨priorities, hpriorities, h⟩ := ok_of_bind h
  obtain ⟨members, hmembers, h⟩ := ok_of_bind h
  obtain ⟨projects', hprojects', h'⟩ := ok_of_bind h'
  obtain ⟨statuses', hstatuses', h'⟩ := ok_of_bind h'
  obtain ⟨overdue', -, h'⟩ := ok_of_bind h'
  obtain ⟨upcoming', -, h'⟩ := ok_of_bind h'
  obtain ⟨priorities', hpriorities', h'⟩ := ok_of_bind h'
  obtain ⟨members', hmembers', h'⟩ := ok_of_bind h'
  obtain rfl : projects' = projects := Except.ok.inj (hprojects'.symm.trans hprojects)
  obtain rfl : statuses' = statuses := Except.ok.inj (hstatuses'.symm.trans hstatuses)
  obtain rfl : priorities' = priorities := Except.ok.inj (hpriorities'.symm.trans hpriorities)
  obtain rfl : members' = members := Except.ok.inj (hmembers'.symm.trans hmembers)
  cases h
  cases h'
  rfl

/-! ## What mutations write and queries read -/

/-- The tables that a mutation of this user writes to.  Whom an invitation or an update is
    told to depends on what the database holds. -/
def Mutation.writes (userId : String) : Mutation → Set Table
  | .createWorkspace _ _ => {.workspaces, .members}
  | .updateWorkspace _ _ => {.workspaces}
  | .deleteWorkspace _ => {.workspaces, .members, .projects, .tasks, .comments}
  | .inviteWorkspaceMember _ _ _ => {.members} ∪ inboxes
  | .createProject _ _ _ => {.projects}
  | .updateProject _ _ _ _ _ => {.projects}
  | .deleteProject _ _ => {.projects, .tasks, .comments}
  | .createTask _ _ dto => {.tasks} ∪ {t | ∃ x, dto.assignedTo = some x ∧ t = .inbox x}
  | .updateTask _ _ _ => {.tasks} ∪ inboxes
  | .deleteTask _ _ => {.tasks}
  | .addComment _ _ _ => {.comments} ∪ {t | ∃ x, x ≠ userId ∧ t = .inbox x}

/-- The tables that the answer is read from. -/
def Query.reads (userId : String) : Query → List Table
  | .getWorkspaces => [.workspaces, .members]
  | .getWorkspaceMembers _ => [.members]
  | .getProjects _ => [.projects]
  | .getTasks _ _ _ => [.tasks]
  | .getTaskById _ _ => [.tasks]
  | .getSubtaskTree _ _ => [.tasks]
  | .getComments _ _ => [.tasks, .comments]
  | .getDashboardMetrics _ => [.projects, .tasks]
  | .getNotifications => [.inbox userId]

/-- **A mutation writes to its tables only.** -/
theorem handlerProg_writes (userId : String) (m : Mutation) :
    OnlyIssues (WritesTo (m.writes userId)) (m.handlerProg userId) := by
  cases m with
  | createWorkspace name slug =>
      exact (createWorkspace_writes userId name slug (Or.inl rfl) (Or.inr rfl)).bind
        fun _ => trivial
  | updateWorkspace id name =>
      exact (updateWorkspace_writes id.text userId name (Set.mem_singleton _)).bind fun _ => trivial
  | deleteWorkspace id =>
      exact (deleteWorkspace_writes id.text userId fun _ => Set.Subset.refl _).bind
        fun _ => trivial
  | inviteWorkspaceMember w email role =>
      exact (inviteMember_writes w.text userId email role (Or.inl rfl)
        Set.subset_union_right).bind fun _ => trivial
  | createProject w name description =>
      exact (createProject_writes w.text userId name description (Set.mem_singleton _)).bind
        fun _ => trivial
  | updateProject w id name description status =>
      exact (updateProject_writes id.text w.text userId name description status
        (Set.mem_singleton _)).bind fun _ => trivial
  | deleteProject w id =>
      exact (deleteProject_writes id.text w.text userId fun _ => Set.Subset.refl _).bind
        fun _ => trivial
  | createTask w p dto =>
      exact (createTask_writes w.text p.text userId dto (Or.inl rfl)
        fun x hx => Or.inr ⟨x, hx, rfl⟩).bind fun _ => trivial
  | updateTask w t dto =>
      exact (liftTask_writes _ (Or.inl rfl) Set.subset_union_right).bind fun _ => trivial
  | deleteTask w t =>
      exact (deleteTask_writes t.text w.text userId (Set.mem_singleton _)).bind fun _ => trivial
  | addComment w t message =>
      exact (addComment_writes w.text t.text userId message (Or.inl rfl)
        fun x hx => Or.inr ⟨x, hx, rfl⟩).bind fun _ => trivial

/-- Of a mutation that spells its ids as the columns do there is the handler, or no route. -/
theorem prog_cases {b : Backend} {m : Mutation} (hm : m.Spelled b) :
    m.prog b = m.handlerProg b.userId ∨ ∃ e, m.prog b = .fail e := by
  rw [m.prog_eq, byValue_spelled hm]
  cases m.endpoint.handler with
  | none => exact Or.inr ⟨_, rfl⟩
  | some h => exact Or.inl rfl

section Performed

variable {b : Backend} {Q : String → String → QueryTaskDto → Prop} {s : TaskState}

/-- The state that a mutation leaves behind. -/
abbrev after (b : Backend) (m : Mutation) (ω : Nat → Choice) (s : TaskState) : TaskState :=
  (Request.mutation m).perform b ω s

/-- What the handler sees to is seen to, if nothing need be done where no route leads to
    it. -/
theorem performed {R : TaskState → Prop} {m : Mutation} (hm : m.Spelled b) (hs : R s)
    (h : Ensures (apiExec b.pg) (fun _ s' => R s') (m.handlerProg b.userId) s)
    (ω : Nat → Choice) : R (after b m ω s) := by
  have hne : Nonempty Choice := ⟨{}⟩
  show R (solo (apiExec b.pg) ω (m.prog b) s).1
  rcases prog_cases hm with hprog | ⟨e, hprog⟩
  · rw [hprog]
    exact (ensures_iff _ _ _).mp h ω
  · rw [hprog]
    exact hs

/-- A request that no route leads to changes nothing. -/
theorem performed_unrouted {m : Mutation} (h : m.endpoint.handler = none) (ω : Nat → Choice) :
    after b m ω s = s := by
  show (solo (apiExec b.pg) ω (m.prog b) s).1 = s
  rw [m.prog_eq, h]
  rfl

theorem performed_onlyIn {m : Mutation} (hm : m.Spelled b) (ω : Nat → Choice) :
    OnlyIn (m.writes b.userId) s.db (after b m ω s).db :=
  performed (R := fun s' => OnlyIn (m.writes b.userId) s.db s'.db) hm (OnlyIn.refl _ _)
    (onlyIn_ensures (handlerProg_writes b.userId m) s) ω

/-- Nothing of a comment concerns the cache. -/
theorem addComment_idle (w t u message : String) :
    OnlyIssues Idle (PlatformApi.addComment w t u message) := by
  refine (addComment_issues w t u message).mono ?_
  rintro op (_ | _ | _ | _ | _ | _ | ⟨-, (_ | _ | _ | _)⟩) <;> trivial

theorem handlerProg_settles {pg : Postgres} {userId : String} (hQ : KeysApart Q)
    (hT : Settled pg.text Q s) (m : Mutation) :
    EnsuresWhen (apiExec pg) (Allowed pg Q) (fun _ s' => Settled pg.text Q s')
      (m.handlerProg userId) s := by
  have hcall : ∀ c : ApiCall, (∀ r : CachedRead, c ≠ r.call) →
      EnsuresWhen (apiExec pg) (Allowed pg Q) (fun _ s' => Settled pg.text Q s') c.prog s :=
    fun c hc => call_settles hQ hT fun r hr => absurd hr (hc r)
  cases m with
  | createWorkspace name slug =>
      exact hcall (.createWorkspace userId name slug) fun r h => by cases r <;> cases h
  | updateWorkspace id name =>
      exact hcall (.updateWorkspace id.text userId name) fun r h => by cases r <;> cases h
  | deleteWorkspace id =>
      exact hcall (.deleteWorkspace id.text userId) fun r h => by cases r <;> cases h
  | inviteWorkspaceMember w email role =>
      exact hcall (.inviteMember w.text userId email role) fun r h => by cases r <;> cases h
  | createProject w name description =>
      exact hcall (.createProject w.text userId name description)
        fun r h => by cases r <;> cases h
  | updateProject w id name description status =>
      exact hcall (.updateProject id.text w.text userId name description status)
        fun r h => by cases r <;> cases h
  | deleteProject w id =>
      exact hcall (.deleteProject id.text w.text userId) fun r h => by cases r <;> cases h
  | createTask w p dto =>
      exact hcall (.task (.createTask w.text p.text userId dto)) fun r h => by cases r <;> cases h
  | updateTask w t dto =>
      exact hcall (.task (.updateTask t.text w.text userId dto)) fun r h => by cases r <;> cases h
  | deleteTask w t =>
      exact hcall (.task (.deleteTask t.text w.text userId)) fun r h => by cases r <;> cases h
  | addComment w t message =>
      exact (ensures_map.mpr (idle_settles (addComment_idle _ _ _ _) hT)).when

theorem performed_settled (hQ : KeysApart Q) (hT : Settled b.pg.text (Running Q) s)
    {m : Mutation} (hm : m.Spelled b) {ω : Nat → Choice}
    (hω : Along (apiExec b.pg) (Allowed b.pg Q) ω (m.prog b) s) :
    Settled b.pg.text (Running Q) (after b m ω s) := by
  show Settled b.pg.text (Running Q) (solo (apiExec b.pg) ω (m.prog b) s).1
  rcases prog_cases hm with hprog | ⟨e, hprog⟩
  · rw [hprog] at hω ⊢
    exact ((handlerProg_settles hQ.running hT m).within
      fun ω op s h => ⟨h.1, h.2.running⟩).solo hω
  · rw [hprog]
    exact hT

/-! ### Marks -/

/-- An operation of the inbox that is none of the task service sets notifications at
    most. -/
theorem exec_marks (pg : PostgresText) (d : PlatformInbox.Decision)
    (op : PlatformInbox.InboxOp) (s : PlatformInbox.InboxState) (hop : ∀ op', op ≠ .task op') :
    ∃ rows, (PlatformInbox.exec pg d op s).1.tasks
      = { s.tasks.wait d.choice with db := { s.tasks.db with notifications := rows } } := by
  unfold PlatformInbox.exec
  cases d.fault with
  | some e => exact ⟨_, rfl⟩
  | none =>
      cases op with
      | task op => exact absurd rfl (hop op)
      | find u r => exact ⟨_, rfl⟩
      | findOne id u => exact ⟨_, rfl⟩
      | save n => exact ⟨_, rfl⟩
      | updateUnread u => exact ⟨_, rfl⟩

/-- Of the state the notifications alone are other ones. -/
structure Marked (Q : String → String → QueryTaskDto → Prop) (pg : PostgresText)
    (s s' : TaskState) : Prop where
  settled : Settled pg Q s'
  onlyIn : OnlyIn inboxes s.db s'.db

theorem marked_marks {α : Type} (hT : Settled b.pg.text Q s) {p : PlatformInbox.InboxProg α}
    (hp : OnlyIssues (fun op => ∀ op', op ≠ .task op') p) (ω : Nat → Choice) :
    Marked Q b.pg.text s (Request.marked b p ω s) := by
  have hkeep : ∀ d op (i : PlatformInbox.InboxState), (∀ op', op ≠ .task op') →
      Marked Q b.pg.text s i.tasks →
        Marked Q b.pg.text s (PlatformInbox.exec b.pg.text d op i).1.tasks := by
    intro d op i hop hi
    obtain ⟨rows, htasks⟩ := exec_marks b.pg.text d op i hop
    rw [htasks]
    have hwait := hi.settled.wait d.choice
    refine ⟨⟨hwait.tables.congr rfl rfl rfl, ?_⟩, hi.onlyIn.trans ⟨rfl, fun t ht => ?_⟩⟩
    · intro k v hk hd
      obtain ⟨r, hr, hkey, hv⟩ := hwait.entries.hit hk hd
      exact ⟨r, hr, hkey, (answer_congr rfl rfl rfl rfl r).trans hv⟩
    · cases t with
      | inbox u => exact absurd ⟨u, rfl⟩ ht
      | _ => rfl
  have hne : Nonempty PlatformInbox.Decision := ⟨{}⟩
  have hstart : Marked Q b.pg.text s (PlatformInbox.InboxState.mk s b.createdAt).tasks :=
    ⟨hT, OnlyIn.refl _ _⟩
  have hends := hp.ensures hkeep (returns_any p) hstart
  exact ((ensures_iff _ _ _).mp hends fun n => ⟨ω n, none⟩).1

/-- Marks are set in the notifications. -/
theorem marks_set (hT : Settled b.pg.text Q s) {r : Request} (hr : ∀ m, r ≠ .mutation m)
    (ω : Nat → Choice) : Marked Q b.pg.text s (r.perform b ω s) := by
  have hask : ∀ {op : PlatformInbox.InboxOp}, (∀ op', op ≠ .task op') →
      OnlyIssues (fun op => ∀ op', op ≠ .task op') (PlatformInbox.ask op) := by
    intro op hop
    refine OnlyIssues.await hop ?_
    rintro (e | a) <;> trivial
  cases r with
  | mutation m => exact absurd rfl (hr m)
  | markNotificationRead id =>
      unfold Request.perform
      dsimp only
      cases b.uuid id.text with
      | none => exact ⟨hT.wait _, OnlyIn.refl _ _⟩
      | some id =>
          refine marked_marks hT ((hask fun _ h => by cases h).bind ?_) ω
          rintro (_ | n)
          · trivial
          · exact (hask fun _ h => by cases h).bind fun _ => trivial
  | markAllNotificationsRead => exact marked_marks hT (hask fun _ h => by cases h) ω

end Performed

/-! ## Answers -/

section Answers

variable {b : Backend} {now : Nat → Int} {db db' : Database}

/-- A user is shown the notifications of that user. -/
theorem notifications_kept (h : inboxOf b.userId db' = inboxOf b.userId db) :
    Query.getNotifications.answer b now db' = Query.getNotifications.answer b now db := by
  have hrows : ∀ db : Database,
    (PlatformInbox.findRows ⟨⟨db, fun _ => none, 0⟩, b.createdAt⟩
      b.userId none) = (inboxOf b.userId db).mergeSort
        fun n n' => decide (b.createdAt n'.id ≤ b.createdAt n.id) := by
    intro db
    simp only [PlatformInbox.findRows, PlatformInbox.InboxState.rows, inboxOf, Option.all_none,
      Bool.and_true]
  simp only [Query.answer, hrows, h]

/-- **An answer changes with the tables that it is read from.** -/
theorem answer_same {T : Set Table} (h : OnlyIn T db db') {q : Query}
    (hq : ∀ t ∈ q.reads b.userId, t ∉ T) : q.answer b now db' = q.answer b now db := by
  have hsame : ∀ t ∈ q.reads b.userId, t.Same db db' := fun t ht => h.same t (hq t ht)
  have husers := h.users
  clear h hq
  obtain ⟨users, workspaces, members, projects, tasks, comments, notifications⟩ := db
  obtain ⟨users', workspaces', members', projects', tasks', comments', notifications'⟩ := db'
  obtain rfl : users' = users := husers
  cases q with
  | getWorkspaces =>
      obtain rfl : workspaces' = workspaces := hsame .workspaces (List.mem_cons_self ..)
      obtain rfl : members' = members :=
        hsame .members (List.mem_cons_of_mem _ (List.mem_singleton.mpr rfl))
      rfl
  | getWorkspaceMembers w =>
      obtain rfl : members' = members := hsame .members (List.mem_singleton.mpr rfl)
      rfl
  | getProjects w =>
      obtain rfl : projects' = projects := hsame .projects (List.mem_singleton.mpr rfl)
      rfl
  | getTasks w p params =>
      obtain rfl : tasks' = tasks := hsame .tasks (List.mem_singleton.mpr rfl)
      rfl
  | getTaskById w t =>
      obtain rfl : tasks' = tasks := hsame .tasks (List.mem_singleton.mpr rfl)
      rfl
  | getSubtaskTree w t =>
      obtain rfl : tasks' = tasks := hsame .tasks (List.mem_singleton.mpr rfl)
      rfl
  | getComments w t =>
      obtain rfl : tasks' = tasks := hsame .tasks (List.mem_cons_self ..)
      obtain rfl : comments' = comments :=
        hsame .comments (List.mem_cons_of_mem _ (List.mem_singleton.mpr rfl))
      rfl
  | getDashboardMetrics w =>
      obtain rfl : projects' = projects := hsame .projects (List.mem_cons_self ..)
      obtain rfl : tasks' = tasks :=
        hsame .tasks (List.mem_cons_of_mem _ (List.mem_singleton.mpr rfl))
      rfl
  | getNotifications =>
      exact notifications_kept (hsame (.inbox b.userId) (List.mem_singleton.mpr rfl))

/-- A task is found where there is a live row of it. -/
def HasTask (db : Database) (id w : String) : Prop :=
  ∃ r ∈ db.tasks, r.id = id ∧ r.workspaceId = w ∧ r.deletedAt = none

theorem findTask_isSome {id w : String} :
    (findTask db id w).isSome = true ↔ HasTask db id w := by
  rw [findTask, List.find?_isSome]
  simp only [Bool.and_eq_true, decide_eq_true_eq, Option.isNone_iff_eq_none, and_assoc, HasTask]

/-- The comments on a task are shown as long as there is the task. -/
theorem comments_kept {T : Set Table} {w t : PathId} {a : Answer} (h : OnlyIn T db db')
    (hT : Table.comments ∉ T) (ha : (Query.getComments w t).answer b now db = some a)
    (hkept : HasTask db t.text w.text → HasTask db' t.text w.text) :
    (Query.getComments w t).answer b now db' = some a := by
  obtain ⟨task, htask, rfl⟩ := Option.map_eq_some_iff.mp ha
  have hthere := hkept (findTask_isSome.mp (by rw [htask]; rfl))
  obtain ⟨task', htask'⟩ := Option.isSome_iff_exists.mp (findTask_isSome.mpr hthere)
  have hcomments : findComments db' t.text = findComments db t.text := by
    have hload : loadComment db' = loadComment db := by
      funext c
      rw [loadComment, loadComment, findUser, findUser, h.users]
    have hsame : db'.comments = db.comments := h.same .comments hT
    rw [findComments, findComments, hload, hsame]
  show (findTask db' t.text w.text).map _ = _
  rw [htask', hcomments]
  rfl

/-- The rows of a workspace in the table of the projects. -/
def projectsOf (w : String) (db : Database) : List Project :=
  db.projects.filter fun p => p.workspaceId = w

theorem projects_kept {w : PathId} (h : projectsOf w.text db' = projectsOf w.text db) :
    (Query.getProjects w).answer b now db' = (Query.getProjects w).answer b now db := by
  have hactive : ∀ db : Database,
      db.projects.filter (fun p => p.workspaceId = w.text && p.status = "ACTIVE")
        = (projectsOf w.text db).filter fun p => p.status = "ACTIVE" := by
    intro db
    rw [projectsOf, List.filter_filter]
    exact List.filter_congr fun p _ => Bool.and_comm _ _
  show some (Answer.reply (.projects (findActiveProjects db' w.text))) = _
  rw [findActiveProjects, hactive, h, ← hactive]
  rfl

/-- Of the projects the dashboard counts those of its workspace. -/
theorem metrics_kept {w : PathId} (h : OnlyIn {.projects} db db')
    (hprojects : projectsOf w.text db' = projectsOf w.text db) :
    (Query.getDashboardMetrics w).answer b now db'
      = (Query.getDashboardMetrics w).answer b now db := by
  have hcount : (dashboardTables db').projects.filter (fun p => p.workspaceId = w.text)
      = (dashboardTables db).projects.filter fun p => p.workspaceId = w.text := hprojects
  have htasks : db'.tasks = db.tasks :=
    h.same .tasks fun hmem => by cases Set.mem_singleton_iff.mp hmem
  have hsummary : getSummary b.session (dashboardTables db') now w.text
      = getSummary b.session (dashboardTables db) now w.text := by
    unfold getSummary
    rw [hcount]
    simp only [dashboardTables, completedByMember, htasks, h.users]
  show Option.map _ (Except.toOption (getSummary _ _ _ _)) = _
  rw [hsummary]
  rfl

end Answers

end PlatformQueries
