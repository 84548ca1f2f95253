import TaskPlatform.Announcements
import TaskPlatform.ApiRuns

/-! # How requests spell their ids

    The id columns are uuid columns.  Postgres reads a text that it is to compare with one,
    or to store in one, by its value: a uuid has several spellings (letters of either case,
    braces), and a text that is no uuid makes the statement fail.  The services put the text
    of the request as it is into cache keys, rooms and logs.

    The statements of `exec` compare ids as texts, which is right where a request spells its
    ids as the columns do.  `byValue` is what a call does for any spelling: the same program,
    with every id of a statement read by its value.  For a call that spells its ids as the
    columns do it is the program itself (`TaskCall.byValue_cases`). -/

namespace PlatformTasks

open AsyncProgram Interleaving PlatformEntities

/-! ## What Postgres takes -/

/-- How Postgres takes what one request names: the spelling of the columns for each id, and
    whether it refuses a list query for another reason. -/
structure Reading where
  id : String → Option String
  refuses : QueryTaskDto → Bool

/-- Every id is spelled as the columns spell it, and every query runs. -/
def Reading.asStored : Reading := ⟨some, fun _ => false⟩

/-- No text of Postgres holds the character NUL. -/
def noNul (s : String) : Bool := s.toList.all fun c => c ≠ '\x00'

/-- The largest `bigint`. -/
def maxBigint : Nat := 9223372036854775807

/-- The texts of the query are texts of Postgres, and its `OFFSET` is a `bigint`.  The
    product is exact here; past 2^53 that of the source is rounded. -/
def QueryTaskDto.runs (query : QueryTaskDto) : Bool :=
  (truthy query.status).all noNul && (truthy query.priority).all noNul
    && (truthy query.search).all noNul
    && (orDefault query.page 1 - 1) * orDefault query.limit 10 ≤ maxBigint

section Read

variable (read : String → Option String)

/-- An id that may be left out. -/
def readOptional : Option String → Option (Option String)
  | none => some none
  | some x => (read x).map some

/-- The query with the id of its assignee as the column spells it. -/
def QueryTaskDto.readBy (query : QueryTaskDto) : Option QueryTaskDto :=
  match truthy query.assignedTo with
  | none => some query
  | some x => (read x).map fun y => { query with assignedTo := some y }

/-- The new task with its ids as the columns spell them. -/
def NewTask.readBy (n : NewTask) : Option NewTask := do
  let workspaceId ← read n.workspaceId
  let projectId ← read n.projectId
  let parentTaskId ← readOptional read n.parentTaskId
  let assignedTo ← readOptional read n.assignedTo
  let createdBy ← read n.createdBy
  some { n with
    workspaceId := workspaceId
    projectId := projectId
    parentTaskId := parentTaskId
    assignedTo := assignedTo
    createdBy := createdBy }

end Read

/-- The list query that is run, if none of it is refused. -/
def Reading.listQuery (r : Reading) (w p : String) (query : QueryTaskDto) :
    Option (String × String × QueryTaskDto) :=
  if r.refuses query then none
  else do
    let workspaceId ← r.id w
    let projectId ← r.id p
    let query ← query.readBy r.id
    some (workspaceId, projectId, query)

/-- The statement of a `getTasks`. -/
def listing : Option (String × String × QueryTaskDto) → TaskProg TaskPage
  | none => .fail .queryFailed
  | some (w, p, query) => ask (.getManyAndCount w p query)

/-- A statement about an id. -/
def Reading.withId {Op : Type} {Res : Op → Type} {α : Type} (r : Reading) (x : String)
    (statement : String → Prog Op Res HttpError α) : Prog Op Res HttpError α :=
  match r.id x with
  | none => .fail .queryFailed
  | some y => statement y

/-- A `save` of something that names an id. -/
def Reading.saving {Op : Type} {Res : Op → Type} {α β : Type} (x : Option α)
    (statement : α → Prog Op Res HttpError (Except HttpError β)) :
    Prog Op Res HttpError (Except HttpError β) :=
  match x with
  | none => .done (.error .queryFailed)
  | some y => statement y

/-- The property of an object that was saved: the text that it was given, where another
    one is stored for it. -/
def asGiven {α : Type} [DecidableEq α] (given read column : α) : α :=
  if read = given then column else given

/-- The row of a new object, with the texts that the object was given. -/
def NewTask.asGiven (given read : NewTask) (row : Task) : Task :=
  { row with
    workspaceId := PlatformTasks.asGiven given.workspaceId read.workspaceId row.workspaceId
    projectId := PlatformTasks.asGiven given.projectId read.projectId row.projectId
    parentTaskId := PlatformTasks.asGiven given.parentTaskId read.parentTaskId row.parentTaskId
    assignedTo := PlatformTasks.asGiven given.assignedTo read.assignedTo row.assignedTo
    createdBy := PlatformTasks.asGiven given.createdBy read.createdBy row.createdBy }

/-! ## The task service -/

/-- The object with its assignee as the column spells it, where `save` writes the column
    from it. -/
def TaskEntity.readBy (read : String → Option String) (e : TaskEntity) : Option TaskEntity :=
  match e.assignee with
  | some _ => some e
  | none => (readOptional read e.row.assignedTo).map fun x =>
      { e with row := { e.row with assignedTo := x } }

/-- An operation whose statement reads its ids by their values.  Objects that were loaded
    hold ids as the columns spell them. -/
def TaskOp.byValue (r : Reading) : (op : TaskOp) → TaskProg op.Res
  | .findOne id w => r.withId id fun id => r.withId w fun w => ask (.findOne id w)
  | .getManyAndCount w p query => listing (r.listQuery w p query)
  | .insert n => Reading.saving (n.readBy r.id) fun n' => do
      let saved ← ask (.insert n')
      .done (saved.map (NewTask.asGiven n n'))
  | .save e => Reading.saving (e.readBy r.id) fun e => ask (.save e)
  | .insertNotification u ty ti m => Reading.saving (r.id u) fun u' => do
      let saved ← ask (.insertNotification u' ty ti m)
      .done (saved.map fun n => { n with userId := asGiven u u' n.userId })
  | .cacheGet key => ask (.cacheGet key)
  | .cacheSet key value ttl => ask (.cacheSet key value ttl)
  | .cacheDel key => ask (.cacheDel key)
  | .cacheDelPattern pattern => ask (.cacheDelPattern pattern)
  | .softRemove task => ask (.softRemove task)
  | .currentTime => ask .currentTime
  | .auditLog action u payload => ask (.auditLog action u payload)
  | .activityLog w ty id action u => ask (.activityLog w ty id action u)
  | .queueAdd job => ask (.queueAdd job)
  | .emit event => ask (.emit event)

section AsStored

theorem asGiven_self {α : Type} [DecidableEq α] (given column : α) :
    asGiven given given column = column := if_pos rfl

theorem readOptional_some (x : Option String) : readOptional some x = some x := by
  cases x <;> rfl

theorem QueryTaskDto.readBy_some (query : QueryTaskDto) : query.readBy some = some query := by
  unfold QueryTaskDto.readBy
  cases h : truthy query.assignedTo with
  | none => rfl
  | some x =>
      have hx := (truthy_eq_some.mp h).1
      show some { query with assignedTo := some x } = some query
      rw [← hx]

theorem NewTask.readBy_some (n : NewTask) : n.readBy some = some n := by
  simp only [NewTask.readBy, readOptional_some]
  rfl

theorem NewTask.asGiven_self (n : NewTask) (row : Task) : n.asGiven n row = row := by
  simp only [NewTask.asGiven, PlatformTasks.asGiven_self]

theorem TaskEntity.readBy_some (e : TaskEntity) : e.readBy some = some e := by
  obtain ⟨row, title, status, priority, assignee, creator⟩ := e
  cases assignee with
  | some u => rfl
  | none =>
      simp only [TaskEntity.readBy, readOptional_some]
      rfl

/-- An answer that comes back as it is. -/
theorem perform_map_self {Op : Type} {Res : Op → Type} {E : Type} {op : Op}
    {f : Res op → Res op}
    (hf : ∀ a, f a = a) :
    (Prog.perform op >>= fun a => .done (f a)) = (Prog.perform op : Prog Op Res E (Res op)) :=
  congrArg (Prog.await op) (funext fun a => congrArg Prog.done (hf a))

theorem map_self {α : Type} {f : α → α} (hf : ∀ a, f a = a) (saved : Except HttpError α) :
    saved.map f = saved := by
  cases saved with
  | error e => rfl
  | ok a => exact congrArg Except.ok (hf a)

/-- Where every id is spelled as it is stored, every operation is as it is. -/
theorem TaskOp.byValue_asStored (op : TaskOp) : op.byValue .asStored = ask op := by
  cases op with
  | getManyAndCount w p query =>
      show listing ((query.readBy some).bind fun query => some (w, p, query)) = _
      rw [query.readBy_some]
      rfl
  | insert n =>
      show Reading.saving (n.readBy some) _ = _
      rw [n.readBy_some]
      exact perform_map_self (map_self (NewTask.asGiven_self n))
  | save e =>
      show Reading.saving (e.readBy some) _ = _
      rw [e.readBy_some]
      rfl
  | insertNotification u ty ti m =>
      refine perform_map_self (map_self fun n => ?_)
      rw [PlatformTasks.asGiven_self]
  | _ => rfl

end AsStored

/-! ## Calls of the task service -/

/-- The value of a field. -/
def Field.toList {α : Type} : Field α → List α
  | .val a => [a]
  | _ => []

/-- The ids that the request names. -/
def TaskCall.ids : TaskCall → List String
  | .createTask w p u dto => [w, p, u] ++ dto.parentTaskId.toList ++ dto.assignedTo.toList
  | .getTasks w p query => [w, p] ++ (truthy query.assignedTo).toList
  | .findById id w => [id, w]
  | .updateTask id w u dto => [id, w, u] ++ dto.assignedTo.toList
  | .deleteTask id w u => [id, w, u]

/-- The list queries that it names. -/
def TaskCall.queries : TaskCall → List QueryTaskDto
  | .getTasks _ _ query => [query]
  | _ => []

/-- What a request that names these ids and queries is read as: each of the ids by what
    Postgres makes of it.  The other ids of its statements come out of columns. -/
def Reading.of (uuid : String → Option String) (ids : List String)
    (queries : List QueryTaskDto) : Reading where
  id x := if x ∈ ids then uuid x else some x
  refuses query := query ∈ queries && !query.runs

/-- Where ids are spelled as they are stored, and the queries run, there is nothing to
    read. -/
theorem Reading.of_spelled {uuid : String → Option String} {ids : List String}
    {queries : List QueryTaskDto} (hids : ∀ x ∈ ids, uuid x = some x)
    (hqueries : ∀ query ∈ queries, query.runs = true) :
    Reading.of uuid ids queries = .asStored := by
  have hid : (Reading.of uuid ids queries).id = some := by
    funext x
    show (if x ∈ ids then uuid x else some x) = some x
    by_cases hx : x ∈ ids
    · rw [if_pos hx, hids x hx]
    · rw [if_neg hx]
  have hrefuses : (Reading.of uuid ids queries).refuses = fun _ => false := by
    funext query
    show (decide (query ∈ queries) && !query.runs) = false
    by_cases hq : query ∈ queries
    · rw [hqueries query hq, Bool.not_true, Bool.and_false]
    · rw [decide_eq_false hq, Bool.false_and]
  exact congrArg₂ Reading.mk hid hrefuses

/-- What the call does, whatever the spelling of its ids. -/
def TaskCall.byValue (uuid : String → Option String) (c : TaskCall) : TaskProg TaskReply :=
  c.prog.expand (TaskOp.byValue (Reading.of uuid c.ids c.queries))

/-- The call spells its ids as the columns do. -/
def TaskCall.Spelled (uuid : String → Option String) (c : TaskCall) : Prop :=
  ∀ x ∈ c.ids, uuid x = some x

instance (uuid : String → Option String) (c : TaskCall) : Decidable (c.Spelled uuid) :=
  inferInstanceAs (Decidable (∀ x ∈ c.ids, uuid x = some x))

/-- The query that a `getTasks` has the database run, if it does. -/
def asked (uuid : String → Option String) (w p : String) (query : QueryTaskDto) :
    Option (String × String × QueryTaskDto) :=
  (Reading.mk uuid fun query => !query.runs).listQuery w p query

/-- It depends on the ids and the query that the request names. -/
theorem listQuery_of (uuid : String → Option String) (w p : String) (query : QueryTaskDto) :
    (Reading.of uuid (TaskCall.getTasks w p query).ids [query]).listQuery w p query
      = asked uuid w p query := by
  have hid : ∀ x ∈ (TaskCall.getTasks w p query).ids,
      (Reading.of uuid (TaskCall.getTasks w p query).ids [query]).id x = uuid x :=
    fun x hx => if_pos hx
  have hrefuses : (Reading.of uuid (TaskCall.getTasks w p query).ids [query]).refuses query
      = !query.runs := by
    show (decide (query ∈ [query]) && !query.runs) = !query.runs
    rw [decide_eq_true (List.mem_singleton.mpr rfl), Bool.true_and]
  have hread : query.readBy (Reading.of uuid (TaskCall.getTasks w p query).ids [query]).id
      = query.readBy uuid := by
    unfold QueryTaskDto.readBy
    cases h : truthy query.assignedTo with
    | none => rfl
    | some x =>
        dsimp only
        rw [hid x (List.mem_append_right _ (Option.mem_toList.mpr h))]
  rw [asked, Reading.listQuery, Reading.listQuery, hrefuses, hread,
    hid w (List.mem_cons_self ..), hid p (List.mem_cons_of_mem _ (List.mem_cons_self ..))]

/-- A query that runs, with its ids spelled as they are stored, is asked as it is. -/
theorem asked_spelled {uuid : String → Option String} {w p : String} {query : QueryTaskDto}
    (h : (TaskCall.getTasks w p query).Spelled uuid) (hruns : query.runs = true) :
    asked uuid w p query = some (w, p, query) := by
  have hqueries : ∀ q ∈ [query], q.runs = true :=
    fun q hq => (List.mem_singleton.mp hq).symm ▸ hruns
  rw [← listQuery_of, Reading.of_spelled h hqueries]
  show ((query.readBy some).bind fun query => some (w, p, query)) = some (w, p, query)
  rw [query.readBy_some]
  rfl

/-- `getTasks`, once the key and the query are worked out. -/
def listUnder (cacheKey : String) (query : Option (String × String × QueryTaskDto)) :
    TaskProg TaskReply := do
  let cached ← ask (.cacheGet cacheKey)
  match cached with
  | some cached => .done (.listed cached)
  | none => do
      let result ← listing query
      ask (.cacheSet cacheKey (.tasks result) 300)
      .done (.listed (.tasks result))

theorem getTasks_byValue (uuid : String → Option String) (w p : String)
    (query : QueryTaskDto) :
    (TaskCall.getTasks w p query).byValue uuid
      = listUnder (getListCacheKey w p query) (asked uuid w p query) := by
  refine congrArg (Prog.await _) (funext fun cached => ?_)
  cases cached with
  | some cached => rfl
  | none =>
      show listing (Reading.listQuery _ w p query) >>= _ = _
      exact listQuery_of uuid w p query ▸ rfl

/-- A call that spells its ids as the columns do is as it is, but for a list query that
    Postgres refuses. -/
theorem TaskCall.byValue_cases {uuid : String → Option String} {c : TaskCall}
    (h : c.Spelled uuid) :
    ((∀ query ∈ c.queries, query.runs = true) ∧ c.byValue uuid = c.prog) ∨
      ∃ w p query, c = .getTasks w p query ∧ query.runs = false ∧
        c.byValue uuid = listUnder (getListCacheKey w p query) none := by
  by_cases hruns : ∀ query ∈ c.queries, query.runs = true
  · refine Or.inl ⟨hruns, ?_⟩
    rw [TaskCall.byValue, Reading.of_spelled h hruns]
    exact Prog.expand_self TaskOp.byValue_asStored c.prog
  · cases c with
    | getTasks w p query =>
        have hrefused : query.runs = false := by
          rw [← Bool.not_eq_true]
          intro hq
          exact hruns fun q hmem => List.mem_singleton.mp hmem ▸ hq
        have hnone : asked uuid w p query = none := if_pos (congrArg not hrefused)
        refine Or.inr ⟨w, p, query, rfl, hrefused, ?_⟩
        rw [getTasks_byValue, hnone]
    | _ => exact absurd (fun q hq => by cases hq) hruns

/-- A list query that Postgres refuses looks into the cache and throws. -/
theorem listUnder_none (cacheKey : String) :
    OnlyIssues (fun op => op = .cacheGet cacheKey) (listUnder cacheKey none) := by
  refine ⟨rfl, ?_⟩
  rintro (_ | cached) <;> trivial

/-- A small world of ids: "T" is another spelling of "t", and "bob" is no id. -/
def capitals (s : String) : Option String :=
  if s = "T" then some "t" else if s = "bob" then none else some s

/-- Calls about to begin, whatever the spelling of their ids. -/
def poolByValue (uuid : String → Option String) (s : TaskState) (calls : List TaskCall) :
    Pool TaskOp TaskOp.Res HttpError TaskReply TaskState :=
  ⟨s, calls.map (TaskCall.byValue uuid)⟩

end PlatformTasks

namespace PlatformApi

open AsyncProgram Interleaving PlatformEntities PlatformTasks

/-! ## The three services -/

/-- `buildTree` looks for the root by the text of the request. -/
def underRoot (given read : String) : Hierarchy → Hierarchy
  | .tree node => .tree (if read = given then node else none)
  | .rows rows => .rows rows

theorem underRoot_self (given : String) (found : Hierarchy) :
    underRoot given given found = found := by
  cases found with
  | tree node => exact congrArg Hierarchy.tree (if_pos rfl)
  | rows rows => rfl

/-- An operation whose statement reads its ids by their values. -/
def ApiOp.byValue (r : Reading) : (op : ApiOp) → ApiProg op.Res
  | .task op => liftTask (op.byValue r)
  | .findWorkspaceById id => r.withId id fun id => ask (.findWorkspaceById id)
  | .findWorkspaceBySlug slug => ask (.findWorkspaceBySlug slug)
  | .insertWorkspace name slug ownerId => Reading.saving (r.id ownerId) fun u => do
      let saved ← ask (.insertWorkspace name slug u)
      .done (saved.map fun w => { w with ownerId := asGiven ownerId u w.ownerId })
  | .saveWorkspace w => ask (.saveWorkspace w)
  | .removeWorkspace id => ask (.removeWorkspace id)
  | .findMember w u => r.withId w fun w => r.withId u fun u => ask (.findMember w u)
  | .findMembers w => r.withId w fun w => ask (.findMembers w)
  | .saveMember m => Reading.saving (r.id m.workspaceId) fun w => do
      let saved ← ask (.saveMember { m with workspaceId := w })
      .done (saved.map fun row =>
        { row with workspaceId := asGiven m.workspaceId w row.workspaceId })
  | .findUserByEmail email => ask (.findUserByEmail email)
  | .findUserById id => r.withId id fun id => ask (.findUserById id)
  | .sendMemberJoined w role user => ask (.sendMemberJoined w role user)
  | .insertProject w name description status => Reading.saving (r.id w) fun w' => do
      let saved ← ask (.insertProject w' name description status)
      .done (saved.map fun p => { p with workspaceId := asGiven w w' p.workspaceId })
  | .findActiveProjects w => r.withId w fun w => ask (.findActiveProjects w)
  | .findProject id w => r.withId id fun id => r.withId w fun w => ask (.findProject id w)
  | .saveProject p => ask (.saveProject p)
  | .removeProject id => ask (.removeProject id)
  | .findTask id w => r.withId id fun id => r.withId w fun w => ask (.findTask id w)
  | .insertComment taskId u message =>
      Reading.saving (r.id taskId) fun taskId' => Reading.saving (r.id u) fun u' => do
        let saved ← ask (.insertComment taskId' u' message)
        .done (saved.map fun c => { c with
          taskId := asGiven taskId taskId' c.taskId
          userId := asGiven u u' c.userId })
  | .findComment id => ask (.findComment id)
  | .findComments taskId => r.withId taskId fun taskId => ask (.findComments taskId)
  | .sendCommentCreated w comment => ask (.sendCommentCreated w comment)
  | .subtasks query taskId w =>
      Reading.saving (r.id taskId) fun taskId' => Reading.saving (r.id w) fun w => do
        let found ← ask (.subtasks query taskId' w)
        .done (found.map (underRoot taskId taskId'))
  | .count w => r.withId w fun w => ask (.count w)
  | .auditLog action u payload => ask (.auditLog action u payload)

theorem ApiOp.byValue_asStored (op : ApiOp) : op.byValue .asStored = ask op := by
  cases op with
  | task op =>
      show liftTask (op.byValue .asStored) = _
      rw [op.byValue_asStored]
      rfl
  | insertWorkspace name slug ownerId =>
      refine perform_map_self (map_self fun w => ?_)
      rw [asGiven_self]
  | saveMember m =>
      refine perform_map_self (map_self fun row => ?_)
      rw [asGiven_self]
  | insertProject w name description status =>
      refine perform_map_self (map_self fun p => ?_)
      rw [asGiven_self]
  | insertComment taskId u message =>
      refine perform_map_self (map_self fun c => ?_)
      rw [asGiven_self, asGiven_self]
  | subtasks query taskId w => exact perform_map_self (map_self (underRoot_self taskId))
  | _ => rfl

/-- The ids that the request names. -/
def ApiCall.ids : ApiCall → List String
  | .task call => call.ids
  | .createProject w u _ _ => [w, u]
  | .getProjects w => [w]
  | .findProjectById id w => [id, w]
  | .updateProject id w u _ _ _ => [id, w, u]
  | .deleteProject id w u => [id, w, u]
  | .createWorkspace ownerId _ _ => [ownerId]
  | .findById id => [id]
  | .findBySlug _ => []
  | .updateWorkspace id u _ => [id, u]
  | .deleteWorkspace id u => [id, u]
  | .inviteMember w performerId _ _ => [w, performerId]
  | .getMembers w => [w]

/-- The list queries that it names. -/
def ApiCall.queries : ApiCall → List QueryTaskDto
  | .task call => call.queries
  | _ => []

/-- What the call does, whatever the spelling of its ids. -/
def ApiCall.byValue (uuid : String → Option String) (c : ApiCall) : ApiProg Reply :=
  c.prog.expand (ApiOp.byValue (Reading.of uuid c.ids c.queries))

/-- The call spells its ids as the columns do. -/
def ApiCall.Spelled (uuid : String → Option String) (c : ApiCall) : Prop :=
  ∀ x ∈ c.ids, uuid x = some x

instance (uuid : String → Option String) (c : ApiCall) : Decidable (c.Spelled uuid) :=
  inferInstanceAs (Decidable (∀ x ∈ c.ids, uuid x = some x))

/-- The task service inside the API. -/
theorem expand_liftTask_byValue (r : Reading) {α : Type} (p : TaskProg α) :
    (liftTask p).expand (ApiOp.byValue r) = liftTask (p.expand (TaskOp.byValue r)) := by
  induction p with
  | done a => rfl
  | fail e => rfl
  | await op k ih =>
      show liftTask (op.byValue r) >>= _ = liftTask (op.byValue r >>= _)
      rw [liftTask_bind]
      exact congrArg (liftTask (op.byValue r) >>= ·) (funext ih)

theorem ApiCall.byValue_task (uuid : String → Option String) (call : TaskCall) :
    (ApiCall.task call).byValue uuid = Reply.task <$> liftTask (call.byValue uuid) := by
  show ((liftTask call.prog) >>= fun reply => .done (Reply.task reply)).expand _ = _
  rw [Prog.expand_bind, expand_liftTask_byValue]
  rfl

/-- A call that spells its ids as the columns do is as it is, but for a list query that
    Postgres refuses. -/
theorem ApiCall.byValue_cases {uuid : String → Option String} {c : ApiCall}
    (h : c.Spelled uuid) :
    ((∀ query ∈ c.queries, query.runs = true) ∧ c.byValue uuid = c.prog) ∨
      ∃ w p query, c = .task (.getTasks w p query) ∧ query.runs = false ∧
        c.byValue uuid
          = Reply.task <$> liftTask (listUnder (getListCacheKey w p query) none) := by
  cases c with
  | task call =>
      rw [ApiCall.byValue_task]
      rcases TaskCall.byValue_cases (c := call) h with
        ⟨hruns, hsame⟩ | ⟨w, p, query, rfl, hq, hlist⟩
      · rw [hsame]
        exact Or.inl ⟨hruns, rfl⟩
      · rw [hlist]
        exact Or.inr ⟨w, p, query, rfl, hq, rfl⟩
  | _ =>
      refine Or.inl ⟨fun q hq => (by cases hq), ?_⟩
      rw [ApiCall.byValue, Reading.of_spelled h fun q hq => by cases hq]
      exact Prog.expand_self ApiOp.byValue_asStored _

end PlatformApi
