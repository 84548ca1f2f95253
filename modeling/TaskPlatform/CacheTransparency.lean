import TaskPlatform.CacheSteps
import TaskPlatform.WorkspaceHandlers

/-! # The cache is transparent

    Calls of the three services, one after the other, keep every cache entry an answer
    of the database: what a call writes, it takes out of the cache before it ends.  What
    a cascade deletes is the exception, so that has to have left the cache
    (`NothingLeft`).  Then a read comes back with the same from any cache as from an
    empty one.

    All this is for calls that spell their ids as the columns do: an entry under another
    spelling of an id is one that no later write takes out. -/

namespace PlatformApi

open AsyncProgram Interleaving PlatformEntities PlatformTasks RowTable GlobPattern CacheAside

/-! ## Reads -/

section Reads

variable {Q : String → String → QueryTaskDto → Prop} {s : TaskState}

/-- What a read leaves behind, and what it comes back with. -/
def ReadEnds {α : Type} (pg : PostgresText) (Q : String → String → QueryTaskDto → Prop)
    (db : Database) (result : Except HttpError α) (out : Except HttpError α) (s' : TaskState) :
    Prop :=
  Settled pg Q s' ∧ s'.db = db ∧ out = result

theorem findInDatabase_reads {pg : PostgresText} (hT : Settled pg Q s) (id w : String) :
    Ensures (exec pg)
      (ReadEnds pg Q s.db
        (CachedRead.orMissing "Task not found in this workspace" (findOneTask s.db id w)))
      (findInDatabase id w) s := by
  intro ω
  cases hr : (exec pg ω (.findOne id w) s).2 with
  | none =>
      have ht : findOneTask s.db id w = none := hr
      exact ⟨hT.wait ω, rfl, by rw [ht]; rfl⟩
  | some t =>
      have ht : findOneTask s.db id w = some t := hr
      intro ω'
      have hanswer : (CachedRead.task id w).answer pg (s.wait ω).db = some (.task t) := by
        show (findOneTask s.db id w).map _ = _
        rw [ht]
        rfl
      exact ⟨(hT.wait ω).fill ω' (r := .task id w) trivial hanswer 300, rfl, by rw [ht]; rfl⟩

/-- `findById` of a task: a hit is the task of some workspace, and the check of the
    workspace does the rest. -/
theorem findTask_reads {pg : PostgresText} (hT : Settled pg Q s) (id w : String) :
    Ensures (exec pg)
      (ReadEnds pg Q s.db
        (CachedRead.orMissing "Task not found in this workspace" (findOneTask s.db id w)))
      (PlatformTasks.findById id w) s := by
  intro ω
  have hmiss := findInDatabase_reads (hT.wait ω) id w
  cases hc : (exec pg ω (.cacheGet (getTaskCacheKey id)) s).2 with
  | none => exact hmiss
  | some v =>
      obtain ⟨r, -, hkey, hanswer⟩ := hT.hit hc
      obtain ⟨w', rfl⟩ := taskKey_apart hkey
      obtain ⟨t, ht, rfl⟩ := Option.map_eq_some_iff.mp hanswer
      obtain ⟨-, -, -, hw', -⟩ := findOneTask_some ht
      show Ensures (exec pg) _ (if t.row.workspaceId = w then .done t else findInDatabase id w)
        (s.wait ω)
      by_cases hw : t.row.workspaceId = w
      · rw [if_pos hw]
        refine ⟨hT.wait ω, rfl, ?_⟩
        rw [← hw, hw', ht]
        rfl
      · rw [if_neg hw]
        exact hmiss

theorem getTasks_reads {pg : PostgresText} (hQ : KeysApart Q) (hT : Settled pg Q s)
    {w p : String} {q : QueryTaskDto} (hq : Q w p q) :
    Ensures (exec pg) (ReadEnds pg Q s.db (.ok (.listed (.tasks (listTasks pg s.db w p q)))))
      (PlatformTasks.getTasks w p q) s := by
  intro ω
  cases hc : (exec pg ω (.cacheGet (getListCacheKey w p q)) s).2 with
  | none =>
      intro ω₁ ω₂
      exact ⟨((hT.wait ω).wait ω₁).fill ω₂ (r := .tasks w p q) hq rfl 300, rfl, rfl⟩
  | some v =>
      obtain ⟨r, hr, hkey, hanswer⟩ := hT.hit hc
      obtain rfl := listKey_apart hQ hq hr hkey
      cases hanswer
      exact ⟨hT.wait ω, rfl, rfl⟩

variable {pg : Postgres}

theorem getProjects_reads (hQ : KeysApart Q) (hT : Settled pg.text Q s) {w : String}
    (hw : IsId w) :
    Ensures (apiExec pg) (ReadEnds pg.text Q s.db (.ok (findActiveProjects s.db w)))
      (PlatformApi.getProjects w) s := by
  intro ω
  cases hc : (apiExec pg ω (.task (.cacheGet (getProjectsCacheKey w))) s).2 with
  | none =>
      intro ω₁ ω₂
      exact ⟨((hT.wait ω).wait ω₁).fill ω₂ (r := .projects w) hw rfl 300, rfl, rfl⟩
  | some v =>
      obtain ⟨r, hr, hkey, hanswer⟩ := hT.hit hc
      obtain rfl := projectsKey_apart hQ hw hr hkey
      cases hanswer
      exact ⟨hT.wait ω, rfl, rfl⟩

/-- `findById` and `findBySlug` of a workspace. -/
theorem findWorkspace_reads (hT : Settled pg.text Q s) {query : ApiOp}
    {found : query.Res → Option LoadedWorkspace} (read : CachedRead)
    {answer : Option LoadedWorkspace} (hread : Asked Q read)
    (hanswer : read.answer pg.text s.db = answer.map .workspace)
    (hapart : ∀ r : CachedRead, Asked Q r → r.key = read.key → r = read)
    (hquery : ∀ (ω : Choice) (s' : TaskState), s'.db = s.db →
      (apiExec pg ω query s').1 = s'.wait ω ∧ found (apiExec pg ω query s').2 = answer) :
    Ensures (apiExec pg)
      (ReadEnds pg.text Q s.db (CachedRead.orMissing "Workspace not found" answer))
      (findWorkspace read.key query found) s := by
  have hmiss : ∀ ω, Ensures (apiExec pg)
      (ReadEnds pg.text Q s.db (CachedRead.orMissing "Workspace not found" answer))
      (do
        let found' ← ask query
        let workspace ← orNotFound "Workspace not found" (found found')
        ask (.task (.cacheSet read.key (.workspace workspace) 3600))
        .done workspace) (s.wait ω) := by
    intro ω ω₁
    obtain ⟨hstate, hfound⟩ := hquery ω₁ (s.wait ω) rfl
    show Ensures (apiExec pg) _ (orNotFound _ (found (apiExec pg ω₁ query (s.wait ω)).2) >>= _)
      (apiExec pg ω₁ query (s.wait ω)).1
    rw [hstate, hfound]
    cases hw : answer with
    | none => exact ⟨(hT.wait ω).wait ω₁, rfl, rfl⟩
    | some w =>
        intro ω₂
        have hv : read.answer pg.text ((s.wait ω).wait ω₁).db = some (.workspace w) := by
          rw [← Option.map_some, ← hw]
          exact hanswer
        exact ⟨((hT.wait ω).wait ω₁).fill ω₂ hread hv 3600, rfl, rfl⟩
  intro ω
  cases hc : (apiExec pg ω (.task (.cacheGet read.key)) s).2 with
  | none => exact hmiss ω
  | some v =>
      obtain ⟨r, hr, hkey, hv⟩ := hT.hit hc
      rw [hapart r hr hkey, hanswer] at hv
      obtain ⟨w, hw, rfl⟩ := Option.map_eq_some_iff.mp hv
      refine ⟨hT.wait ω, rfl, ?_⟩
      rw [hw]
      rfl

theorem findWorkspaceById_reads (hQ : KeysApart Q) (hT : Settled pg.text Q s) (id : String) :
    Ensures (apiExec pg)
      (ReadEnds pg.text Q s.db (CachedRead.orMissing "Workspace not found"
        ((s.db.workspaces.find? fun w => w.id = id).map (loadWorkspace s.db))))
      (PlatformApi.findById id) s := by
  refine findWorkspace_reads hT (.workspaceById id) trivial rfl ?_ ?_
  · exact fun r hr hkey => workspaceKey_apart hQ false hr hkey
  · intro ω s' hs'
    rw [← hs']
    exact ⟨rfl, rfl⟩

theorem findWorkspaceBySlug_reads (hQ : KeysApart Q) (hT : Settled pg.text Q s)
    (slug : String) :
    Ensures (apiExec pg)
      (ReadEnds pg.text Q s.db (CachedRead.orMissing "Workspace not found"
        ((s.db.workspaces.find? fun w => w.slug = slug).map (loadWorkspace s.db))))
      (PlatformApi.findBySlug slug) s := by
  refine findWorkspace_reads hT (.workspaceBySlug slug) trivial rfl ?_ ?_
  · exact fun r hr hkey => workspaceKey_apart hQ true hr hkey
  · intro ω s' hs'
    rw [← hs']
    exact ⟨rfl, rfl⟩

/-- **Reads.**  Where every entry is right, a read leaves it so, and comes back with what
    the database holds. -/
theorem read_ends (hQ : KeysApart Q) (hT : Settled pg.text Q s) {read : CachedRead}
    (hread : Asked Q read) :
    Ensures (apiExec pg) (ReadEnds pg.text Q s.db (read.outcome pg.text s.db))
      read.call.prog s := by
  cases read with
  | task id w =>
      refine ensures_map.mpr (ensures_lift.mpr (ensures_map.mpr ?_))
      refine (findTask_reads hT id w).mono ?_
      rintro out s' ⟨hT', hdb, rfl⟩
      refine ⟨hT', hdb, ?_⟩
      cases hf : findOneTask s.db id w <;> simp only [CachedRead.outcome, hf] <;> rfl
  | tasks w p q =>
      refine ensures_map.mpr (ensures_lift.mpr ?_)
      refine (getTasks_reads hQ hT hread).mono ?_
      rintro out s' ⟨hT', hdb, rfl⟩
      exact ⟨hT', hdb, rfl⟩
  | projects w =>
      refine ensures_map.mpr ((getProjects_reads hQ hT hread).mono ?_)
      rintro out s' ⟨hT', hdb, rfl⟩
      exact ⟨hT', hdb, rfl⟩
  | workspaceById id =>
      refine ensures_map.mpr ((findWorkspaceById_reads hQ hT id).mono ?_)
      rintro out s' ⟨hT', hdb, rfl⟩
      exact ⟨hT', hdb, rfl⟩
  | workspaceBySlug slug =>
      refine ensures_map.mpr ((findWorkspaceBySlug_reads hQ hT slug).mono ?_)
      rintro out s' ⟨hT', hdb, rfl⟩
      exact ⟨hT', hdb, rfl⟩

end Reads

/-! ## Calls -/

/-- Operations that write nothing the reads look at, and fill nothing. -/
def Idle : ApiOp → Prop
  | .task op => PlatformTasks.Quiet op
  | .insertWorkspace _ _ _ => False
  | .saveWorkspace _ => False
  | .removeWorkspace _ => False
  | .insertProject _ _ _ _ => False
  | .saveProject _ => False
  | .removeProject _ => False
  | _ => True

section Calls

variable {Q : String → String → QueryTaskDto → Prop} {s : TaskState}

/-! ### Tasks -/

section TaskCalls

variable {pg : PostgresText} {α : Type}

theorem quiet_settles {p : TaskProg α} (hp : OnlyIssues PlatformTasks.Quiet p)
    (hT : Settled pg Q s) : Ensures (exec pg) (fun _ s' => Settled pg Q s') p s := by
  have hkeep : ∀ ω op s', PlatformTasks.Quiet op → Settled pg Q s' →
      Settled pg Q (exec pg ω op s').1 :=
    fun ω op s' hop hT' => (hT'.quiet ω hop).mono fun k hk => hk.1
  exact (hp.ensures hkeep (returns_any p) hT).mono fun _ _ h => h.1

/-- The end of an update or a deletion: what the task concerns is dropped, and the rest
    is quiet. -/
theorem concerned_settles {row : Task} (hT : Transparent pg Q (Concerns row) s)
    {f : Unit → TaskProg α} (hf : ∀ u, OnlyIssues PlatformTasks.Quiet (f u)) :
    Ensures (exec pg) (fun _ s' => Settled pg Q s')
      (.await (.cacheDel (getTaskCacheKey row.id)) fun _ =>
        .await (.cacheDelPattern (getListCachePattern row.workspaceId row.projectId)) f) s := by
  intro ω₁ ω₂
  refine quiet_settles (hf ()) (((hT.drop ω₁ _).dropPattern ω₂ _).mono ?_)
  rintro k ⟨⟨hk | hk, hne⟩, hkept⟩
  · exact hne hk
  · exact hkept hk

theorem createTask_settles (hT : Settled pg Q s) (w p u : String) (dto : CreateTaskDto) :
    Ensures (exec pg) (fun _ s' => Settled pg Q s') (PlatformTasks.createTask w p u dto) s := by
  intro ω
  rcases exec_insert_cases pg ω _ s with ⟨e, h⟩ | ⟨db, row, hins, h⟩
  · rw [h]
    exact hT.wait ω
  · rw [h]
    intro ω'
    refine quiet_settles ?_ (((hT.insertTask ω hins).dropPattern ω' _).mono ?_)
    · exact ⟨trivial, fun _ => ⟨trivial, fun _ => ⟨trivial, fun _ =>
        (notifyAssignee_quiet dto).bind fun _ => trivial⟩⟩⟩
    · exact fun k hk => hk.2 hk.1

theorem updateTask_settles (hT : Settled pg Q s) (id w u : String) (dto : UpdateTaskDto) :
    Ensures (exec pg) (fun _ s' => Settled pg Q s') (PlatformTasks.updateTask id w u dto) s := by
  show Ensures _ _ (PlatformTasks.findById id w >>= updateLoaded id w u dto) s
  rw [ensures_bind]
  refine (findTask_reads hT id w).mono ?_
  rintro out s₁ ⟨hT₁, hdb, rfl⟩
  cases hfound : findOneTask s.db id w with
  | none => exact hT₁
  | some t =>
      obtain ⟨-, hmem, rfl, rfl, -⟩ := findOneTask_some hfound
      show Ensures _ _ (updateLoaded t.row.id t.row.workspaceId u dto t) s₁
      unfold updateLoaded
      by_cases hversion : versionMismatch dto.version t.row.version = true
      · rw [if_pos hversion]
        exact hT₁
      · rw [if_neg hversion, ensures_bind]
        -- asking for the time changes neither
        have hkeep : ∀ ω op s', PlatformTasks.Quiet op →
            Settled pg Q s' ∧ t.row ∈ s'.db.tasks →
            Settled pg Q (exec pg ω op s').1 ∧ t.row ∈ (exec pg ω op s').1.db.tasks := by
          rintro ω op s' hop ⟨hT', hmem'⟩
          refine ⟨(hT'.quiet ω hop).mono fun k hk => hk.1, ?_⟩
          rw [exec_tasks pg ω op s' fun hwrites => by cases op <;> trivial]
          exact hmem'
        refine ((completionTime_quiet dto t).ensures hkeep (returns_any _)
          ⟨hT₁, hdb ▸ hmem⟩).mono ?_
        rintro (e | c) s₂ ⟨⟨hT₂, hmem₂⟩, -⟩
        · exact hT₂
        · intro ω
          rcases exec_save_cases pg ω (applyDto t dto c) s₂ with ⟨err, h⟩
            | ⟨db, saved, hs, h⟩
          · rw [h]
            exact hT₂.wait ω
          · rw [h]
            have hquiet := afterSave_quiet t.row.id t.row.workspaceId u dto t saved
            exact concerned_settles (hT₂.saveTask ω hmem₂ hs) (hquiet.2 ()).2

theorem deleteTask_settles (hT : Settled pg Q s) (id w u : String) :
    Ensures (exec pg) (fun _ s' => Settled pg Q s') (PlatformTasks.deleteTask id w u) s := by
  show Ensures _ _ (PlatformTasks.findById id w >>= _) s
  rw [ensures_bind]
  refine (findTask_reads hT id w).mono ?_
  rintro out s₁ ⟨hT₁, hdb, rfl⟩
  cases hfound : findOneTask s.db id w with
  | none => exact hT₁
  | some t =>
      obtain ⟨-, hmem, rfl, rfl, -⟩ := findOneTask_some hfound
      intro ω
      refine concerned_settles (hT₁.softRemoveTask ω (s₁.now + ω.elapsed) (hdb ▸ hmem)) ?_
      exact fun _ => ⟨trivial, fun _ => ⟨trivial, fun _ => ⟨trivial, fun _ => ⟨trivial,
        fun _ => trivial⟩⟩⟩⟩

end TaskCalls

/-! ### Projects and workspaces -/

variable {pg : Postgres} {dirty : String → Prop}

theorem Transparent.idle (hT : Transparent pg.text Q dirty s) (ω : Choice) {op : ApiOp}
    (hop : Idle op) : Transparent pg.text Q dirty (apiExec pg ω op s).1 := by
  have hsame : ∀ {db' : Database}, db'.tasks = s.db.tasks → db'.users = s.db.users →
      db'.projects = s.db.projects → db'.workspaces = s.db.workspaces →
      Transparent pg.text Q dirty { s.wait ω with db := db' } := by
    intro db' htasks husers hprojects hworkspaces
    refine ⟨hT.tables.congr htasks hprojects hworkspaces, ?_⟩
    intro k v hk hd
    obtain ⟨r, hr, hkey, hv⟩ := hT.entries.hit (wait_cache hk) hd
    exact ⟨r, hr, hkey, by rw [answer_congr htasks husers hprojects hworkspaces, hv]⟩
  cases op with
  | task op => exact (hT.quiet ω hop).mono fun k hk => hk.1
  | saveMember m =>
      cases h : saveMember s.db m with
      | error e =>
          simp only [apiExec, h]
          exact hT.wait ω
      | ok out =>
          obtain ⟨-, hdb, -⟩ := saveMember_ok h
          simp only [apiExec, h]
          exact hsame (by rw [hdb]) (by rw [hdb]) (by rw [hdb]) (by rw [hdb])
  | insertComment t u m =>
      cases h : insertComment s.db ω.newId (s.now + ω.elapsed) t u m with
      | error e =>
          simp only [apiExec, h]
          exact hT.wait ω
      | ok out =>
          obtain ⟨-, hdb⟩ := insertComment_ok h
          simp only [apiExec, h]
          exact hsame (by rw [hdb]) (by rw [hdb]) (by rw [hdb]) (by rw [hdb])
  | insertWorkspace n sl o => exact absurd hop not_false
  | saveWorkspace w => exact absurd hop not_false
  | removeWorkspace w => exact absurd hop not_false
  | insertProject w n d st => exact absurd hop not_false
  | saveProject p => exact absurd hop not_false
  | removeProject p => exact absurd hop not_false
  | _ => exact hT.wait ω

variable {α : Type}

theorem idle_settles {p : ApiProg α} (hp : OnlyIssues Idle p) (hT : Settled pg.text Q s) :
    Ensures (apiExec pg) (fun _ s' => Settled pg.text Q s') p s := by
  have hkeep : ∀ ω op s', Idle op → Settled pg.text Q s' →
      Settled pg.text Q (apiExec pg ω op s').1 := fun ω op s' hop hT' => hT'.idle ω hop
  exact (hp.ensures hkeep (returns_any p) hT).mono fun _ _ h => h.1

/-- The end of a call about a project: the list of the workspace is dropped. -/
theorem listed_settles {w : String}
    (hT : Transparent pg.text Q (fun k => k = getProjectsCacheKey w) s)
    {f : Unit → ApiProg α} (hf : ∀ u, OnlyIssues Idle (f u)) :
    Ensures (apiExec pg) (fun _ s' => Settled pg.text Q s')
      (.await (.task (.cacheDel (getProjectsCacheKey w))) f) s := by
  intro ω
  refine idle_settles (hf ()) ((hT.drop ω _).mono ?_)
  exact fun k hk => hk.2 hk.1

/-- The end of a call about a workspace: both its keys are dropped. -/
theorem dropped_settles {id : String} {w : LoadedWorkspace}
    (hT : Transparent pg.text Q
      (fun k => k = getCacheKey id false ∨ k = getCacheKey w.row.slug true) s)
    {f : Unit → ApiProg α} (hf : ∀ u, OnlyIssues Idle (f u)) :
    Ensures (apiExec pg) (fun _ s' => Settled pg.text Q s') (dropWorkspace id w >>= f) s := by
  intro ω₁ ω₂
  refine idle_settles (hf ()) (((hT.drop ω₁ _).drop ω₂ _).mono ?_)
  rintro k ⟨⟨hk | hk, hne⟩, hkept⟩
  · exact hne hk
  · exact hkept hk

/-- What the world decides: ids are uuids, and nothing is left of what a cascade
    deletes. -/
def Allowed (pg : Postgres) (Q : String → String → QueryTaskDto → Prop) (ω : Choice)
    (op : ApiOp) (s : TaskState) : Prop :=
  Plain ω.newId ∧ NothingLeft pg.text Q ω op s

theorem createProject_settles (hT : Settled pg.text Q s) (w u name : String)
    (description : Option String) :
    EnsuresWhen (apiExec pg) (Allowed pg Q) (fun _ s' => Settled pg.text Q s')
      (PlatformApi.createProject w u name description) s := by
  intro ω hω
  refine (ensures_commit ?_ ?_).when
  · exact fun _ => hT.wait ω
  · intro db p hp
    refine listed_settles (hT.insertProject ω hω.1 hp) ?_
    exact fun _ => ⟨trivial, fun _ => ⟨trivial, fun _ => trivial⟩⟩

theorem updateProject_settles (hT : Settled pg.text Q s) (id w u : String)
    (name description status : Option String) :
    Ensures (apiExec pg) (fun _ s' => Settled pg.text Q s')
      (PlatformApi.updateProject id w u name description status) s := by
  intro ω
  refine ensures_found (fun _ => hT.wait ω) ?_
  intro p hp ω'
  obtain ⟨hmem, -, rfl⟩ := findProject_some hp
  refine ensures_commit (fun _ => (hT.wait ω).wait ω') ?_
  intro db saved hsaved
  refine listed_settles (Transparent.saveProject (hT.wait ω) ω' hmem ?_ ?_ hsaved) ?_
  · rfl
  · rfl
  · exact fun _ => ⟨trivial, fun _ => ⟨trivial, fun _ => trivial⟩⟩

theorem deleteProject_settles (hT : Settled pg.text Q s) (id w u : String) :
    EnsuresWhen (apiExec pg) (Allowed pg Q) (fun _ s' => Settled pg.text Q s')
      (PlatformApi.deleteProject id w u) s := by
  intro ω _
  cases hr : (apiExec pg ω (.findProject id w) s).2 with
  | none => exact hT.wait ω
  | some p =>
      obtain ⟨hmem, -, rfl⟩ := findProject_some hr
      intro ω' hω'
      refine (listed_settles ((hT.wait ω).removeProject ω' hmem hω'.2) ?_).when
      exact fun _ => ⟨trivial, fun _ => ⟨trivial, fun _ => trivial⟩⟩

theorem createWorkspace_settles (hT : Settled pg.text Q s) (u name : String)
    (slug : Option String) :
    EnsuresWhen (apiExec pg) (Allowed pg Q) (fun _ s' => Settled pg.text Q s')
      (PlatformApi.createWorkspace u name slug) s := by
  intro ω _
  cases hr : (apiExec pg ω (.findWorkspaceBySlug ((truthy slug).getD (slugOf name))) s).2 with
  | some w => exact hT.wait ω
  | none =>
      intro ω' hω'
      refine (ensures_commit ?_ ?_).when
      · exact fun _ => (hT.wait ω).wait ω'
      · intro db w hw
        refine idle_settles ?_ ((hT.wait ω).insertWorkspace ω' hω'.1 hw)
        exact ⟨trivial, fun _ => trivial⟩

/-- A call that starts with `findById` of a workspace. -/
theorem ensures_foundWorkspace (hQ : KeysApart Q) (hT : Settled pg.text Q s) {id : String}
    {C : Choice → ApiOp → TaskState → Prop} {f : LoadedWorkspace → ApiProg α}
    (hf : ∀ (row : Workspace) (s' : TaskState), row ∈ s'.db.workspaces → row.id = id →
      Settled pg.text Q s' →
        EnsuresWhen (apiExec pg) C (fun _ s' => Settled pg.text Q s')
          (f (loadWorkspace s'.db row)) s') :
    EnsuresWhen (apiExec pg) C (fun _ s' => Settled pg.text Q s')
      (PlatformApi.findById id >>= f) s := by
  refine EnsuresWhen.bind ((findWorkspaceById_reads hQ hT id).when.mono ?_)
  rintro out s₁ ⟨hT₁, hdb, rfl⟩
  cases hfound : s.db.workspaces.find? fun w => w.id = id with
  | none => exact hT₁
  | some row =>
      have hid : row.id = id := by simpa using List.find?_some hfound
      have hmem : row ∈ s₁.db.workspaces := hdb ▸ List.mem_of_find?_eq_some hfound
      have hrest := hf row s₁ hmem hid hT₁
      rw [hdb] at hrest
      exact hrest

theorem updateWorkspace_settles (hQ : KeysApart Q) (hT : Settled pg.text Q s)
    (id u name : String) :
    EnsuresWhen (apiExec pg) (Allowed pg Q) (fun _ s' => Settled pg.text Q s')
      (PlatformApi.updateWorkspace id u name) s := by
  refine ensures_foundWorkspace hQ hT ?_
  rintro row s₁ hmem rfl hT₁ ω _
  refine (ensures_commit (fun _ => hT₁.wait ω) ?_).when
  intro db saved hsaved
  refine dropped_settles (hT₁.saveWorkspace ω hmem rfl rfl hsaved) ?_
  exact fun _ => ⟨trivial, fun _ => trivial⟩

theorem deleteWorkspace_settles (hQ : KeysApart Q) (hT : Settled pg.text Q s)
    (id u : String) :
    EnsuresWhen (apiExec pg) (Allowed pg Q) (fun _ s' => Settled pg.text Q s')
      (PlatformApi.deleteWorkspace id u) s := by
  refine ensures_foundWorkspace hQ hT ?_
  rintro row s₁ hmem rfl hT₁ ω hω
  refine (dropped_settles (hT₁.removeWorkspace ω hmem hω.2) ?_).when
  exact fun _ => ⟨trivial, fun _ => trivial⟩

theorem inviteMember_settles (hQ : KeysApart Q) (hT : Settled pg.text Q s)
    (w u email : String) (role : Role) :
    EnsuresWhen (apiExec pg) (Allowed pg Q) (fun _ s' => Settled pg.text Q s')
      (PlatformApi.inviteMember w u email role) s := by
  refine ensures_foundWorkspace hQ hT ?_
  intro row s₁ _ _ hT₁
  refine (idle_settles ?_ hT₁).when
  refine ⟨trivial, fun found => (onlyIssues_orNotFound _ found).bind fun user =>
    ⟨trivial, ?_⟩⟩
  rintro (_ | m)
  · refine ⟨trivial, fun r => (onlyIssues_orThrow r).bind fun _ =>
      ⟨trivial, fun invited => ?_⟩⟩
    refine (onlyIssues_orNotFound _ invited).bind fun _ => ⟨trivial, fun _ => ?_⟩
    exact (onlyIssues_liftTask (notification_quiet _ _ _ _)).bind fun _ =>
      ⟨trivial, fun _ => trivial⟩
  · trivial

/-- **One call.**  Where every entry is right, a call leaves it so, in a world where
    nothing is left of what a cascade deletes. -/
theorem call_settles (hQ : KeysApart Q) (hT : Settled pg.text Q s) {c : ApiCall}
    (hc : ∀ r : CachedRead, c = r.call → Asked Q r) :
    EnsuresWhen (apiExec pg) (Allowed pg Q) (fun _ s' => Settled pg.text Q s') c.prog s := by
  -- reads settle by what they ask; the task calls are those of the task service
  have hread : ∀ r : CachedRead, c = r.call →
      EnsuresWhen (apiExec pg) (Allowed pg Q) (fun _ s' => Settled pg.text Q s') c.prog s := by
    intro r hr
    rw [hr]
    exact ((read_ends hQ hT (hc r hr)).mono fun _ _ h => h.1).when
  have htask : ∀ p : TaskProg TaskReply,
      Ensures (exec pg.text) (fun _ s' => Settled pg.text Q s') p s →
      EnsuresWhen (apiExec pg) (Allowed pg Q) (fun _ s' => Settled pg.text Q s')
        (Reply.task <$> liftTask p) s :=
    fun p hp => (ensures_map.mpr (ensures_lift.mpr hp)).when
  cases c with
  | task call =>
      cases call with
      | createTask w p u dto => exact htask _ (createTask_settles hT w p u dto)
      | getTasks w p q => exact hread (.tasks w p q) rfl
      | findById id w => exact hread (.task id w) rfl
      | updateTask id w u dto => exact htask _ (updateTask_settles hT id w u dto)
      | deleteTask id w u => exact htask _ (deleteTask_settles hT id w u)
  | createProject w u name d => exact (createProject_settles hT w u name d).map
  | getProjects w => exact hread (.projects w) rfl
  | findProjectById id w =>
      refine (Ensures.when ?_).map
      exact idle_settles ⟨trivial, fun r => onlyIssues_orNotFound _ r⟩ hT
  | updateProject id w u name d st =>
      exact (updateProject_settles hT id w u name d st).when.map
  | deleteProject id w u => exact (deleteProject_settles hT id w u).map
  | createWorkspace u name slug => exact (createWorkspace_settles hT u name slug).map
  | findById id => exact hread (.workspaceById id) rfl
  | findBySlug slug => exact hread (.workspaceBySlug slug) rfl
  | updateWorkspace id u name => exact (updateWorkspace_settles hQ hT id u name).map
  | deleteWorkspace id u => exact (deleteWorkspace_settles hQ hT id u).map
  | inviteMember w u email role => exact (inviteMember_settles hQ hT w u email role).map
  | getMembers w =>
      exact (idle_settles (p := PlatformApi.getMembers w)
        ⟨trivial, fun _ => trivial⟩ hT).when.map

end Calls

/-! ### What is left is stale -/

section Stale

variable {pg : Postgres} {Q : String → String → QueryTaskDto → Prop} {s : TaskState}

/-- A task that a cascade takes is found no more. -/
theorem findOneTask_taken {db : Database} {gone : Task → Bool} {t : Task}
    (ht : ((cascadeOf db gone).any fun r => r.id = t.id) = true) (w : String) :
    findOneTask (removeTasks db gone) t.id w = none := by
  show ((db.tasks.filter _).find? _).map _ = none
  rw [Option.map_eq_none_iff, List.find?_eq_none]
  intro r hr hmatch
  rw [Bool.and_eq_true, Bool.and_eq_true] at hmatch
  obtain ⟨-, hkept⟩ := List.mem_filter.mp hr
  rw [of_decide_eq_true hmatch.1.1, ht] at hkept
  cases hkept

/-- A task that a cascade takes is missing in every list that counted it. -/
theorem listTasks_taken {pg : PostgresText} {db : Database} {gone : Task → Bool} {t : Task}
    (hmem : t ∈ db.tasks) (ht : ((cascadeOf db gone).any fun r => r.id = t.id) = true)
    {w p : String} {q : QueryTaskDto}
    (hcounted : (inProject w p t && passesFilters pg q t) = true) :
    listTasks pg (removeTasks db gone) w p q ≠ listTasks pg db w p q := by
  intro hsame
  have htotal : (((removeTasks db gone).tasks.filter (inProject w p)).filter
      (passesFilters pg q)).length
      = ((db.tasks.filter (inProject w p)).filter (passesFilters pg q)).length :=
    congrArg TaskPage.total hsame
  have hrows : ((removeTasks db gone).tasks.filter (inProject w p)).filter (passesFilters pg q)
      = ((db.tasks.filter (inProject w p)).filter (passesFilters pg q)).filter fun t =>
        !(cascadeOf db gone).any fun r => r.id = t.id := by
    show ((db.tasks.filter _).filter _).filter _ = _
    simp only [List.filter_filter]
    refine List.filter_congr fun r _ => ?_
    rw [Bool.and_comm, Bool.and_comm (inProject w p r), Bool.and_assoc,
      Bool.and_comm (inProject w p r)]
  -- a filter that leaves the number as it was leaves nothing out
  rw [hrows] at htotal
  rw [Bool.and_eq_true] at hcounted
  have hkept := List.length_filter_eq_length_iff.mp htotal t
    (List.mem_filter.mpr ⟨List.mem_filter.mpr ⟨hmem, hcounted.1⟩, hcounted.2⟩)
  rw [ht] at hkept
  cases hkept

/-- **What is left is stale.**  The condition on deletions is exact: right after one that
    leaves something in the cache, some read would bring back what the database does not
    hold any more. -/
theorem left_is_stale (hQ : KeysApart Q) (hT : Settled pg.text Q s) {ω : Choice} {op : ApiOp}
    (hleft : ¬ NothingLeft pg.text Q ω op s) :
    ∃ (r : CachedRead) (v : CacheValue), Asked Q r ∧
      (apiExec pg ω op s).1.cache r.key = some v ∧
        r.answer pg.text (apiExec pg ω op s).1.db ≠ some v := by
  by_contra hfresh
  have hright : ∀ (r : CachedRead) (v : CacheValue), Asked Q r →
      (apiExec pg ω op s).1.cache r.key = some v →
        r.answer pg.text (apiExec pg ω op s).1.db = some v := by
    intro r v hr hv
    by_contra hne
    exact hfresh ⟨r, v, hr, hv, hne⟩
  refine hleft ⟨?_, ?_, ?_⟩
  · -- a cached task that the cascade takes would still be found
    intro t _ htaken
    by_contra hcached
    obtain ⟨v, hv⟩ := Option.ne_none_iff_exists'.mp hcached
    have hgone : ∀ gone : Task → Bool,
        ((cascadeOf s.db gone).any fun r => r.id = t.id) = true →
        (findOneTask (removeTasks s.db gone) t.id t.workspaceId).map CacheValue.task
          ≠ some v := by
      intro gone hany
      rw [findOneTask_taken hany]
      exact Option.some_ne_none v ∘ Eq.symm
    cases op with
    | removeProject id => exact hgone _ htaken (hright (.task t.id t.workspaceId) v trivial hv)
    | removeWorkspace id => exact hgone _ htaken (hright (.task t.id t.workspaceId) v trivial hv)
    | _ => cases htaken
  · -- a cached page would still count it
    intro w p q hq hcached t ht htaken
    rw [← Bool.not_eq_true]
    intro hcounted
    obtain ⟨v, hv⟩ := Option.ne_none_iff_exists'.mp hcached
    obtain ⟨r, hr, hkey, hanswer⟩ := hT.hit hv
    obtain rfl := listKey_apart hQ hq hr hkey
    have hgone : ∀ gone : Task → Bool,
        ((cascadeOf s.db gone).any fun r => r.id = t.id) = true →
        some (CacheValue.tasks (listTasks pg.text (removeTasks s.db gone) w p q)) ≠ some v := by
      intro gone hany hsame
      rw [← hanswer] at hsame
      injection hsame with hsame
      injection hsame with hsame
      exact listTasks_taken ht hany hcounted hsame
    cases op with
    | removeProject id => exact hgone _ htaken (hright (.tasks w p q) v hq hv)
    | removeWorkspace id => exact hgone _ htaken (hright (.tasks w p q) v hq hv)
    | _ => cases htaken
  · -- the cached projects of a deleted workspace: after the cascade there are none
    rintro id rfl hid hcached
    obtain ⟨v, hv⟩ := Option.ne_none_iff_exists'.mp hcached
    obtain ⟨r, hr, hkey, hanswer⟩ := hT.hit hv
    obtain rfl := projectsKey_apart hQ hid hr hkey
    have hafter : findActiveProjects (removeWorkspace s.db id) id = [] := by
      have hnone : (removeWorkspace s.db id).projects.filter
          (fun p => p.workspaceId = id && p.status = "ACTIVE") = [] := by
        rw [List.filter_eq_nil_iff]
        intro p hp
        have hne := (List.mem_filter.mp hp).2
        simp [of_decide_eq_true hne]
      rw [findActiveProjects, hnone]
      rfl
    have hsame : some (CacheValue.projects (findActiveProjects (removeWorkspace s.db id) id))
        = some v := hright (.projects id) v hid hv
    rw [← hanswer, hafter] at hsame
    injection hsame with hsame
    injection hsame with hsame
    exact hsame.symm

end Stale

/-! ## Sequences -/

/-- The list queries that Postgres runs. -/
def Running (Q : String → String → QueryTaskDto → Prop) (w p : String) (q : QueryTaskDto) :
    Prop :=
  Q w p q ∧ q.runs = true

section Spelling

variable {pg : Postgres} {Q : String → String → QueryTaskDto → Prop} {s : TaskState}
  {uuid : String → Option String}

theorem KeysApart.running (hQ : KeysApart Q) : KeysApart (Running Q) :=
  ⟨fun w p q h => hQ.ids w p q h.1,
    fun w p q w' p' q' h h' => hQ.apart w p q w' p' q' h.1 h'.1⟩

theorem NothingLeft.running {pg : PostgresText} {ω : Choice} {op : ApiOp}
    (h : NothingLeft pg Q ω op s) : NothingLeft pg (Running Q) ω op s :=
  ⟨h.tasks, fun w p q hq => h.lists w p q hq.1, h.projects⟩

/-- A read that Postgres would run. -/
theorem asked_running {r : CachedRead} (hr : Asked Q r)
    (hruns : ∀ query ∈ r.call.queries, query.runs = true) : Asked (Running Q) r := by
  cases r with
  | tasks w p q => exact ⟨hr, hruns q (List.mem_singleton.mpr rfl)⟩
  | task id w => trivial
  | projects w => exact hr
  | workspaceById id => trivial
  | workspaceBySlug slug => trivial

theorem asked_of_running {r : CachedRead} (hr : Asked (Running Q) r) : Asked Q r := by
  cases r with
  | tasks w p q => exact hr.1
  | task id w => trivial
  | projects w => exact hr
  | workspaceById id => trivial
  | workspaceBySlug slug => trivial

/-- Nothing is cached for a query that Postgres refuses, so it throws. -/
theorem refused_throws (hQ : KeysApart Q) (hT : Settled pg.text (Running Q) s) {w p : String}
    {q : QueryTaskDto} (hq : Q w p q) (hrefused : q.runs = false) :
    Ensures (apiExec pg)
      (ReadEnds pg.text (Running Q) s.db (.error .queryFailed : Except HttpError Reply))
      (Reply.task <$> liftTask (listUnder (getListCacheKey w p q) none)) s := by
  refine ensures_map.mpr (ensures_lift.mpr fun ω => ?_)
  cases hc : (exec pg.text ω (.cacheGet (getListCacheKey w p q)) s).2 with
  | none => exact ⟨hT.wait ω, rfl, rfl⟩
  | some v =>
      obtain ⟨r, hr, hkey, -⟩ := hT.hit hc
      obtain rfl := listKey_apart hQ hq (asked_of_running hr) hkey
      exact absurd (hr.2.symm.trans hrefused) Bool.true_eq_false.mp

/-- One call, whatever it is asked for. -/
theorem byValue_settles (hQ : KeysApart Q) (hT : Settled pg.text (Running Q) s) {c : ApiCall}
    (hspelled : c.Spelled uuid) (hc : ∀ r : CachedRead, c = r.call → Asked Q r) :
    EnsuresWhen (apiExec pg) (Allowed pg Q)
      (fun _ s' => Settled pg.text (Running Q) s') (c.byValue uuid) s := by
  rcases ApiCall.byValue_cases hspelled with ⟨hruns, hsame⟩ | ⟨w, p, q, rfl, hq, hlist⟩
  · rw [hsame]
    exact (call_settles hQ.running hT fun r hr => asked_running (hc r hr) (hr ▸ hruns)).within
      fun ω op s h => ⟨h.1, h.2.running⟩
  · rw [hlist]
    exact ((refused_throws hQ hT (hc (.tasks w p q) rfl) hq).mono fun _ _ h => h.1).when

/-- What a read comes back with. -/
def CachedRead.outcomeByValue (pg : PostgresText) (db : Database) (r : CachedRead) :
    Except HttpError Reply :=
  if r.call.queries.all QueryTaskDto.runs then r.outcome pg db else .error .queryFailed

theorem read_byValue (hQ : KeysApart Q) (hT : Settled pg.text (Running Q) s)
    {read : CachedRead} (hread : Asked Q read) (hspelled : read.call.Spelled uuid) :
    Ensures (apiExec pg) (ReadEnds pg.text (Running Q) s.db (read.outcomeByValue pg.text s.db))
      (read.call.byValue uuid) s := by
  unfold CachedRead.outcomeByValue
  rcases ApiCall.byValue_cases hspelled with ⟨hruns, hsame⟩ | ⟨w, p, q, hcall, hq, hlist⟩
  · rw [hsame, if_pos (List.all_eq_true.mpr hruns)]
    exact read_ends hQ.running hT (asked_running hread hruns)
  · obtain rfl : read = .tasks w p q := by
      cases read <;> cases hcall
      rfl
    have hall : ¬ ((CachedRead.tasks w p q).call.queries.all QueryTaskDto.runs) = true := by
      intro hall
      exact absurd ((List.all_eq_true.mp hall q (List.mem_singleton.mpr rfl)).symm.trans hq)
        Bool.true_eq_false.mp
    rw [hlist, if_neg hall]
    exact refused_throws hQ hT hread hq

end Spelling

/-- **Cached reads are transparent.**  After any sequence of calls that spell their ids as
    the columns do, and in which nothing is left in the cache of what a cascade deletes, a
    read comes back with the same as it would with an empty cache. -/
theorem reads_transparent (pg : Postgres) (uuid : String → Option String)
    (Q : String → String → QueryTaskDto → Prop) (hQ : KeysApart Q) (s : TaskState)
    (htables : KeyedTables s.db) (hempty : ∀ k, s.cache k = none)
    (calls : List (ApiCall × (Nat → Choice))) (hspelled : ∀ c ∈ calls, c.1.Spelled uuid)
    (hasked : ∀ c ∈ calls, ∀ r : CachedRead, c.1 = r.call → Asked Q r)
    (hids : ∀ c ∈ calls, ∀ n, Plain (c.2 n).newId)
    (hleft : AtStarts (apiExec pg) (ApiCall.byValue uuid) (fun s c ω =>
      Along (apiExec pg) (NothingLeft pg.text Q) ω (c.byValue uuid) s) calls s)
    (read : CachedRead) (hread : Asked Q read) (hspell : read.call.Spelled uuid)
    (ω ω' : Nat → Choice) :
    let s' := afterAll (apiExec pg) (ApiCall.byValue uuid) calls s
    (solo (apiExec pg) ω (read.call.byValue uuid) s').2
      = (solo (apiExec pg) ω' (read.call.byValue uuid)
          { s' with cache := fun _ => none }).2 := by
  intro s'
  have hne : Nonempty Choice := ⟨{}⟩
  have hstart : Settled pg.text (Running Q) s := by
    refine ⟨htables, ?_⟩
    intro k v hk
    rw [hempty k] at hk
    cases hk
  have hend : Settled pg.text (Running Q) s' := by
    let Fine (c : ApiCall) (ω : Nat → Choice) : Prop :=
      c.Spelled uuid ∧ (∀ r : CachedRead, c = r.call → Asked Q r) ∧
        ∀ n, Plain (ω n).newId
    have hfine : ∀ c ∈ calls, Fine c.1 c.2 :=
      fun c hc => ⟨hspelled c hc, hasked c hc, hids c hc⟩
    refine afterAll_keeps (apiExec pg) (ApiCall.byValue uuid) ?_
      (AtStarts.and _ _ hleft hfine) hstart
    rintro s₁ c ω₁ hT ⟨⟨hspell, hc, hplain⟩, hcascade⟩
    exact (byValue_settles hQ hT hspell hc).solo (hcascade.and hplain)
  -- the same database behind an empty cache
  have hbare : Settled pg.text (Running Q) { s' with cache := fun _ => none } :=
    ⟨hend.tables, upToDate_empty⟩
  have hcached := (ensures_iff _ _ _).mp (read_byValue hQ hend hread hspell) ω
  have hdatabase := (ensures_iff _ _ _).mp (read_byValue hQ hbare hread hspell) ω'
  exact hcached.2.2.trans hdatabase.2.2.symm

/-- Nothing expires, and the id that is generated is this one. -/
def named (id : String) : Nat → Choice := fun _ => ⟨0, [], id⟩

/-- The first page of the project. -/
def firstPage : QueryTaskDto := ⟨some 1, some 10, none, none, none, none, none, none⟩

/-- A task is read, listed and renamed, a second one is made, and the list is read again;
    then they are deleted, the one by itself, the other with the project. -/
def readAndDelete : List (ApiCall × String) :=
  [(.task (.createTask "w" "p" "a" { title := "Plan" }), "1"),
    (.task (.findById "1" "w"), ""),
    (.task (.getTasks "w" "p" firstPage), ""),
    (.task (.updateTask "1" "w" "a" { title := .val "Draft" }), ""),
    (.task (.createTask "w" "p" "a" { title := "Step" }), "2"),
    (.getProjects "w", ""),
    (.task (.getTasks "w" "p" firstPage), ""),
    (.task (.deleteTask "1" "w" "a"), ""),
    (.deleteProject "p" "w" "a", "")]

/-- Calls with the ids that they generate. -/
def withIds (calls : List (ApiCall × String)) : List (ApiCall × (Nat → Choice)) :=
  calls.map fun c => (c.1, named c.2)

theorem office_keyed : KeyedTables office.db :=
  ⟨by decide, by decide, by decide, ⟨by decide, by decide⟩, by decide⟩

/-- The list of the project that is gone is empty, from the cache as without it. -/
theorem readAndDelete_transparent :
    let s' := afterAll (apiExec plainPostgres) (ApiCall.byValue capitals)
      (withIds readAndDelete) office
    (solo (apiExec plainPostgres) (named "")
        ((CachedRead.tasks "w" "p" firstPage).call.byValue capitals) s').2
      = (solo (apiExec plainPostgres) (named "")
        ((CachedRead.tasks "w" "p" firstPage).call.byValue capitals)
          { s' with cache := fun _ => none }).2 := by
  refine reads_transparent plainPostgres capitals
    (fun w p q => (w, p, q) ∈ [("w", "p", firstPage)]) ⟨?_, ?_⟩ office office_keyed
    (fun _ => rfl) (withIds readAndDelete) ?_ ?_ ?_ (by decide +kernel)
    (.tasks "w" "p" firstPage) (List.mem_singleton.mpr rfl) (by decide) (named "") (named "")
  · intro w p q hq
    cases List.mem_singleton.mp hq
    decide
  · intro w p q w' p' q' hq hq' _
    cases List.mem_singleton.mp hq
    cases List.mem_singleton.mp hq'
    exact ⟨rfl, rfl, rfl⟩
  · intro c hc
    obtain ⟨x, hx, rfl⟩ := List.mem_map.mp hc
    have hspelled : ∀ x ∈ readAndDelete, x.1.Spelled capitals := by decide
    exact hspelled x hx
  · intro c hc r hr
    simp only [withIds, readAndDelete, List.map_cons, List.map_nil, List.mem_cons,
      List.not_mem_nil, or_false] at hc
    rcases hc with rfl | rfl | rfl | rfl | rfl | rfl | rfl | rfl | rfl <;> cases r <;> cases hr
    · trivial
    · exact List.mem_singleton.mpr rfl
    · show IsId "w"
      decide
    · exact List.mem_singleton.mpr rfl
  · intro c hc n
    obtain ⟨x, hx, rfl⟩ := List.mem_map.mp hc
    have hplain : ∀ x ∈ readAndDelete, Plain x.2 := by decide
    exact hplain x hx

/-- The task is created and read, and its project deleted. -/
def readBeforeDelete : List (ApiCall × String) :=
  [(.task (.createTask "w" "p" "a" { title := "Plan" }), "1"),
    (.task (.findById "1" "w"), ""),
    (.deleteProject "p" "w" "a", "")]

theorem stale_read :
    ¬ ∀ (pg : Postgres) (uuid : String → Option String)
      (Q : String → String → QueryTaskDto → Prop) (s : TaskState)
      (calls : List (ApiCall × (Nat → Choice))) (read : CachedRead) (ω ω' : Nat → Choice),
      KeysApart Q → KeyedTables s.db → (∀ k, s.cache k = none) →
      (∀ c ∈ calls, c.1.Spelled uuid) →
      (∀ c ∈ calls, ∀ r : CachedRead, c.1 = r.call → Asked Q r) →
      (∀ c ∈ calls, ∀ n, Plain (c.2 n).newId) → Asked Q read → read.call.Spelled uuid →
      let s' := afterAll (apiExec pg) (ApiCall.byValue uuid) calls s
      (solo (apiExec pg) ω (read.call.byValue uuid) s').2
        = (solo (apiExec pg) ω' (read.call.byValue uuid)
            { s' with cache := fun _ => none }).2 := by
  intro hall
  have hsame := hall plainPostgres capitals (fun _ _ _ => False) office
    (withIds readBeforeDelete) (.task "1" "w") (named "") (named "")
    ⟨fun _ _ _ h => h.elim, fun _ _ _ _ _ _ h => h.elim⟩ office_keyed (fun _ => rfl)
    ?_ ?_ ?_ trivial (by decide)
  · -- from the cache it is found, without it it is not
    have hfound := congrArg Except.isOk hsame
    exact absurd hfound (by decide)
  · intro c hc
    obtain ⟨x, hx, rfl⟩ := List.mem_map.mp hc
    have hspelled : ∀ x ∈ readBeforeDelete, x.1.Spelled capitals := by decide
    exact hspelled x hx
  · intro c hc r hr
    simp only [withIds, readBeforeDelete, List.map_cons, List.map_nil, List.mem_cons,
      List.not_mem_nil, or_false] at hc
    rcases hc with rfl | rfl | rfl <;> cases r <;> cases hr
    trivial
  · intro c hc n
    obtain ⟨x, hx, rfl⟩ := List.mem_map.mp hc
    have hplain : ∀ x ∈ readBeforeDelete, Plain x.2 := by decide
    exact hplain x hx

/-- The task "t" is read under another spelling of its id, and renamed. -/
def readBeforeRename : List (ApiCall × String) :=
  [(.task (.createTask "w" "p" "a" { title := "Plan" }), "t"),
    (.task (.findById "T" "w"), ""),
    (.task (.updateTask "t" "w" "a" { title := .val "Draft" }), "")]

/-- The title that a read comes back with. -/
def titleFound : Except HttpError Reply → Option String
  | .ok (.task (.found t)) => some t.row.title
  | _ => none

/-- Under that spelling it is still found with its old title. -/
example :
    let s' := afterAll (apiExec plainPostgres) (ApiCall.byValue capitals)
      (withIds readBeforeRename) office
    titleFound (solo (apiExec plainPostgres) (named "")
        ((CachedRead.task "T" "w").call.byValue capitals) s').2 = some "Plan" ∧
      titleFound (solo (apiExec plainPostgres) (named "")
        ((CachedRead.task "T" "w").call.byValue capitals)
          { s' with cache := fun _ => none }).2 = some "Draft" := by decide

end PlatformApi
