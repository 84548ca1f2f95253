import TaskPlatform.Provenance
import TaskPlatform.Routes

/-! # Calls of the three services, and their histories

    The calls of `TaskService`, `ProjectService` and `WorkspaceService` as programs of
    one type, what such a program has to know before it writes (`call_informed`), and a
    database in which no generated id comes twice (`historyExec`). -/

namespace PlatformApi

open AsyncProgram Interleaving PlatformEntities PlatformTasks RowTable

/-! ## Calls -/

/-- The calls of the services under a workspace. -/
inductive ApiCall where
  | task (call : TaskCall)
  | createProject (workspaceId userId name : String) (description : Option String)
  | getProjects (workspaceId : String)
  | findProjectById (id workspaceId : String)
  | updateProject (id workspaceId userId : String) (name description status : Option String)
  | deleteProject (id workspaceId userId : String)
  | createWorkspace (ownerId name : String) (slug : Option String)
  | findById (id : String)
  | findBySlug (slug : String)
  | updateWorkspace (id userId name : String)
  | deleteWorkspace (id userId : String)
  | inviteMember (workspaceId performerId email : String) (role : Role)
  | getMembers (workspaceId : String)

/-- The method behind each call. -/
def ApiCall.prog : ApiCall → ApiProg Reply
  | .task call => Reply.task <$> liftTask call.prog
  | .createProject w u name description =>
      Reply.project <$> PlatformApi.createProject w u name description
  | .getProjects w => Reply.projects <$> PlatformApi.getProjects w
  | .findProjectById id w => Reply.project <$> PlatformApi.findProjectById id w
  | .updateProject id w u name description status =>
      Reply.project <$> PlatformApi.updateProject id w u name description status
  | .deleteProject id w u => (fun _ => Reply.empty) <$> PlatformApi.deleteProject id w u
  | .createWorkspace u name slug =>
      Reply.workspace <$> PlatformApi.createWorkspace u name slug
  | .findById id => Reply.workspace <$> PlatformApi.findById id
  | .findBySlug slug => Reply.workspace <$> PlatformApi.findBySlug slug
  | .updateWorkspace id u name => Reply.workspace <$> PlatformApi.updateWorkspace id u name
  | .deleteWorkspace id u => (fun _ => Reply.empty) <$> PlatformApi.deleteWorkspace id u
  | .inviteMember w u email role => Reply.member <$> PlatformApi.inviteMember w u email role
  | .getMembers w => Reply.members <$> PlatformApi.getMembers w

/-- A number of calls about to begin. -/
def callPool {σ : Type} (s : σ) (calls : List ApiCall) :
    Pool ApiOp ApiOp.Res HttpError Reply σ :=
  ⟨s, calls.map ApiCall.prog⟩

/-! ## What a call knows -/

/-- What a call has been told, and by which query or under which key of the cache. -/
inductive Fetched where
  /-- A task object with the identity of this row, by its id. -/
  | task (id : String) (row : Task)
  | page (workspaceId : String) (page : TaskPage)
  | projects (workspaceId : String) (l : List Project)
  | byId (id : String) (w : LoadedWorkspace)
  | bySlug (slug : String) (w : LoadedWorkspace)
  /-- The workspace of this id was found, and afterwards no membership of the user. -/
  | stranger (workspaceId userId : String)

/-- A cache entry that holds what its key asks for. -/
inductive Entry (K : Fetched → Prop) : String → CacheValue → Prop where
  | task {id : String} {t : LoadedTask} (known : K (.task id t.row)) :
      Entry K (getTaskCacheKey id) (.task t)
  | page {w p : String} {query : QueryTaskDto} {page : TaskPage} (known : K (.page w page)) :
      Entry K (getListCacheKey w p query) (.tasks page)
  | projects {w : String} {l : List Project} (known : K (.projects w l)) :
      Entry K (getProjectsCacheKey w) (.projects l)
  | byId {id : String} {w : LoadedWorkspace} (known : K (.byId id w)) :
      Entry K (getCacheKey id false) (.workspace w)
  | bySlug {slug : String} {w : LoadedWorkspace} (known : K (.bySlug slug w)) :
      Entry K (getCacheKey slug true) (.workspace w)

/-- What the answers tell a call. -/
inductive Learned (K : Fetched → Prop) : (op : ApiOp) → op.Res → Fetched → Prop where
  | cachedTask {id : String} {t : LoadedTask} :
      Learned K (.task (.cacheGet (getTaskCacheKey id))) (some (.task t)) (.task id t.row)
  | cachedWorkspace {id : String} {w : LoadedWorkspace} :
      Learned K (.task (.cacheGet (getCacheKey id false))) (some (.workspace w)) (.byId id w)
  | task {id w : String} {t : LoadedTask} :
      Learned K (.task (.findOne id w)) (some t) (.task id t.row)
  | page {w p : String} {query : QueryTaskDto} {page : TaskPage} :
      Learned K (.task (.getManyAndCount w p query)) page (.page w page)
  | projects {w : String} {l : List Project} :
      Learned K (.findActiveProjects w) l (.projects w l)
  | byId {id : String} {w : LoadedWorkspace} :
      Learned K (.findWorkspaceById id) (some w) (.byId id w)
  | bySlug {slug : String} {w : LoadedWorkspace} :
      Learned K (.findWorkspaceBySlug slug) (some w) (.bySlug slug w)
  | stranger {w u : String} {ws : LoadedWorkspace} (found : K (.byId w ws)) :
      Learned K (.findMember w u) none (.stranger w u)

/-- Tasks and workspaces are saved as they were loaded, but for the columns that an update
    may change, what is cached is what the key asks for, and memberships are saved where
    none was found. -/
def fetchLearning : Learning ApiOp ApiOp.Res Fetched where
  needs K
    | .task (.save e) => ∃ id t, K (.task id t) ∧ SameIdentity t e.row
    | .task (.cacheSet key v _) => Entry K key v
    | .saveWorkspace w => ∃ id w₀, K (.byId id w₀) ∧ w₀.row.id = w.row.id ∧
        w₀.row.slug = w.row.slug ∧ w₀.row.ownerId = w.row.ownerId ∧ w₀.owner = w.owner
    | .saveMember m => K (.stranger m.workspaceId m.userId)
    | _ => True
  learns := Learned

/-- Operations that need nothing. -/
def Free : ApiOp → Prop
  | .task (.save _) => False
  | .task (.cacheSet _ _ _) => False
  | .saveWorkspace _ => False
  | .saveMember _ => False
  | _ => True

theorem free_needs (K : Fetched → Prop) (op : ApiOp) (h : Free op) :
    fetchLearning.needs K op := by
  cases op with
  | task op =>
      cases op with
      | save e => exact absurd h not_false
      | cacheSet key v ttl => exact absurd h not_false
      | _ => trivial
  | saveWorkspace w => exact absurd h not_false
  | saveMember m => exact absurd h not_false
  | _ => trivial

/-- Rest of a call that writes and fills nothing more. -/
abbrev Rest {α : Type} (p : ApiProg α) : Prop := OnlyIssues Free p

theorem Rest.informed {α : Type} {p : ApiProg α} (h : Rest p) (K : Fetched → Prop) :
    Informed fetchLearning (fun _ _ => True) K p :=
  OnlyIssues.informed free_needs h K

/-! ### Tasks -/

theorem liftTask_bind {α β : Type} (p : TaskProg α) (f : α → TaskProg β) :
    liftTask (p >>= f) = liftTask p >>= fun a => liftTask (f a) := by
  induction p with
  | done a => rfl
  | fail e => rfl
  | await op k ih =>
      show Prog.await (ApiOp.task op) (fun r => liftTask (k r >>= f))
        = Prog.await (ApiOp.task op) (fun r => liftTask (k r) >>= fun a => liftTask (f a))
      congr 1
      funext r
      exact ih r

theorem rest_lift {α : Type} {p : TaskProg α} (h : OnlyIssues PlatformTasks.Quiet p) :
    Rest (liftTask p) := by
  refine onlyIssues_liftTask (h.mono fun op hop => ?_)
  cases op with
  | cacheSet key v ttl => exact absurd hop not_false
  | save e => exact absurd hop not_false
  | _ => trivial

theorem findTask_fetched (id w : String) (K : Fetched → Prop) :
    Informed fetchLearning (fun (t : LoadedTask) K => K (.task id t.row)) K
      (liftTask (PlatformTasks.findById id w)) := by
  have hdb : ∀ K : Fetched → Prop, Informed fetchLearning
      (fun (t : LoadedTask) K => K (.task id t.row)) K (liftTask (findInDatabase id w)) := by
    intro K
    refine ⟨trivial, ?_⟩
    rintro (_ | t)
    · trivial
    · exact ⟨.task (Or.inr .task), fun _ => Or.inl (Or.inr .task)⟩
  refine ⟨trivial, ?_⟩
  rintro (_ | (t | page | ws | l))
  · exact hdb _
  · show Informed fetchLearning _ _ (liftTask (if t.row.workspaceId = w then .done t
      else findInDatabase id w))
    by_cases hw : t.row.workspaceId = w
    · rw [if_pos hw]
      exact Or.inr .cachedTask
    · rw [if_neg hw]
      exact hdb _
  · exact hdb _
  · exact hdb _
  · exact hdb _

theorem task_fetched (c : TaskCall) (K : Fetched → Prop) :
    Informed fetchLearning (fun _ _ => True) K (liftTask c.prog) := by
  cases c with
  | createTask w p u dto =>
      refine ⟨trivial, ?_⟩
      rintro (e | row)
      · trivial
      · refine Rest.informed (rest_lift ?_) _
        exact ⟨trivial, fun _ => ⟨trivial, fun _ => ⟨trivial, fun _ => ⟨trivial, fun _ =>
          (notifyAssignee_quiet dto).bind fun _ => trivial⟩⟩⟩⟩
  | getTasks w p q =>
      refine ⟨trivial, ?_⟩
      rintro (_ | v)
      · exact ⟨trivial, fun _ => ⟨.page (Or.inr .page), fun _ => trivial⟩⟩
      · trivial
  | findById id w =>
      show Informed fetchLearning _ K (liftTask (PlatformTasks.findById id w >>= fun t =>
        .done (TaskReply.found t)))
      rw [liftTask_bind]
      exact (findTask_fetched id w K).bind fun _ _ _ _ => trivial
  | updateTask id w u dto =>
      show Informed fetchLearning _ K (liftTask (PlatformTasks.findById id w >>= fun t =>
        updateLoaded id w u dto t))
      rw [liftTask_bind]
      refine (findTask_fetched id w K).bind fun t K₁ _ ht => ?_
      show Informed fetchLearning _ K₁ (liftTask (updateLoaded id w u dto t))
      unfold updateLoaded
      by_cases hv : versionMismatch dto.version t.row.version = true
      · rw [if_pos hv]
        trivial
      · rw [if_neg hv, liftTask_bind]
        refine OnlyIssues.informed_bind free_needs
          (rest_lift (completionTime_quiet dto t)) fun c K₂ hK₂ => ?_
        -- the saved object has the identity of the loaded one
        refine ⟨⟨id, t.row, hK₂ _ ht, ⟨rfl, rfl, rfl, rfl, rfl⟩⟩, ?_⟩
        rintro (e | saved)
        · trivial
        · exact Rest.informed (rest_lift (afterSave_quiet _ _ _ _ _ _)) _
  | deleteTask id w u =>
      show Informed fetchLearning _ K (liftTask (PlatformTasks.findById id w >>= _))
      rw [liftTask_bind]
      refine (findTask_fetched id w K).bind fun t K₁ _ _ => ?_
      refine Rest.informed ?_ _
      exact ⟨trivial, fun _ => rest_lift ⟨trivial, fun _ => ⟨trivial, fun _ => ⟨trivial,
        fun _ => ⟨trivial, fun _ =>
          ⟨trivial, fun _ => ⟨trivial, fun _ => trivial⟩⟩⟩⟩⟩⟩⟩

/-! ### Workspaces and projects -/

/-- A key by id has one id. -/
theorem idKey_injective {id id' : String} (h : getCacheKey id false = getCacheKey id' false) :
    id = id' := by
  have h' : ("workspace:id:" ++ id).toList = ("workspace:id:" ++ id').toList := congrArg _ h
  rw [String.toList_append, String.toList_append] at h'
  exact String.toList_injective (List.append_cancel_left h')

/-- Keys by id and keys by slug are apart. -/
theorem slugKey_ne_idKey (slug id : String) : getCacheKey slug true ≠ getCacheKey id false := by
  intro h
  have h' : ("workspace:slug:" ++ slug).toList = ("workspace:id:" ++ id).toList := congrArg _ h
  rw [String.toList_append, String.toList_append] at h'
  have h₁₀ := congrArg (fun l : List Char => l[10]?) h'
  rw [List.getElem?_append_left (by decide), List.getElem?_append_left (by decide)] at h₁₀
  exact absurd h₁₀ (by decide)

theorem findById_fetched (id : String) (K : Fetched → Prop) :
    Informed fetchLearning (fun (w : LoadedWorkspace) K => K (.byId id w)) K
      (PlatformApi.findById id) := by
  have hdb : ∀ K : Fetched → Prop, Informed fetchLearning
      (fun (w : LoadedWorkspace) K => K (.byId id w)) K
      (ask (.findWorkspaceById id) >>= fun answer =>
        orNotFound "Workspace not found" answer >>= fun w =>
          ask (.task (.cacheSet (getCacheKey id false) (.workspace w) 3600)) >>= fun _ =>
            .done w) := by
    intro K
    refine ⟨trivial, ?_⟩
    rintro (_ | w)
    · trivial
    · exact ⟨.byId (Or.inr .byId), fun _ => Or.inl (Or.inr .byId)⟩
  refine ⟨trivial, ?_⟩
  rintro (_ | (t | page | w | l))
  · exact hdb _
  · exact hdb _
  · exact hdb _
  · exact Or.inr .cachedWorkspace
  · exact hdb _

theorem findBySlug_fetched (slug : String) (K : Fetched → Prop) :
    Informed fetchLearning (fun _ _ => True) K (PlatformApi.findBySlug slug) := by
  have hdb : ∀ K : Fetched → Prop, Informed fetchLearning (fun _ _ => True) K
      (ask (.findWorkspaceBySlug slug) >>= fun answer =>
        orNotFound "Workspace not found" answer >>= fun w =>
          ask (.task (.cacheSet (getCacheKey slug true) (.workspace w) 3600)) >>= fun _ =>
            .done w) := by
    intro K
    refine ⟨trivial, ?_⟩
    rintro (_ | w)
    · trivial
    · exact ⟨.bySlug (Or.inr .bySlug), fun _ => trivial⟩
  refine ⟨trivial, ?_⟩
  rintro (_ | (t | page | w | l))
  · exact hdb _
  · exact hdb _
  · exact hdb _
  · trivial
  · exact hdb _

theorem dropWorkspace_rest (id : String) (w : LoadedWorkspace) : Rest (dropWorkspace id w) :=
  ⟨trivial, fun _ => ⟨trivial, fun _ => trivial⟩⟩

theorem createProject_rest (w u name : String) (d : Option String) :
    Rest (PlatformApi.createProject w u name d) :=
  ⟨trivial, fun r => (onlyIssues_orThrow r).bind fun _ =>
    ⟨trivial, fun _ => ⟨trivial, fun _ => ⟨trivial, fun _ => trivial⟩⟩⟩⟩

theorem createWorkspace_rest (u name : String) (slug : Option String) :
    Rest (PlatformApi.createWorkspace u name slug) := by
  refine ⟨trivial, ?_⟩
  rintro (_ | w)
  · exact ⟨trivial, fun r => (onlyIssues_orThrow r).bind fun _ =>
      ⟨trivial, fun _ => trivial⟩⟩
  · trivial

theorem findProjectById_rest (id w : String) : Rest (PlatformApi.findProjectById id w) :=
  ⟨trivial, fun r => onlyIssues_orNotFound _ r⟩

/-- **Calls know what they write.** -/
theorem call_fetched (c : ApiCall) (K : Fetched → Prop) :
    Informed fetchLearning (fun _ _ => True) K c.prog := by
  cases c with
  | task call => exact (task_fetched call K).map
  | createProject w u name d => exact ((createProject_rest w u name d).informed K).map
  | getProjects w =>
      have hdb : ∀ K : Fetched → Prop, Informed fetchLearning (fun _ _ => True) K
          (ask (.findActiveProjects w) >>= fun projects =>
            ask (.task (.cacheSet (getProjectsCacheKey w) (.projects projects) 300)) >>= fun _ =>
              .done projects) :=
        fun _ => ⟨trivial, fun _ => ⟨.projects (Or.inr .projects), fun _ => trivial⟩⟩
      refine Informed.map ⟨trivial, ?_⟩
      rintro (_ | (t | page | ws | l))
      · exact hdb _
      · exact hdb _
      · exact hdb _
      · exact hdb _
      · trivial
  | findProjectById id w => exact ((findProjectById_rest id w).informed K).map
  | updateProject id w u name d st =>
      refine Informed.map (Rest.informed ((findProjectById_rest id w).bind fun p => ?_) K)
      exact ⟨trivial, fun r => (onlyIssues_orThrow r).bind fun _ =>
        ⟨trivial, fun _ => ⟨trivial, fun _ => ⟨trivial, fun _ => trivial⟩⟩⟩⟩
  | deleteProject id w u =>
      refine Informed.map (Rest.informed ((findProjectById_rest id w).bind fun p => ?_) K)
      exact ⟨trivial, fun _ => ⟨trivial, fun _ => ⟨trivial, fun _ => ⟨trivial, fun _ =>
        trivial⟩⟩⟩⟩
  | createWorkspace u name slug => exact ((createWorkspace_rest u name slug).informed K).map
  | findById id => exact ((findById_fetched id K).mono fun _ _ _ => trivial).map
  | findBySlug slug => exact (findBySlug_fetched slug K).map
  | updateWorkspace id u name =>
      refine Informed.map ((findById_fetched id K).bind fun w K₁ _ hw => ?_)
      refine ⟨⟨id, w, hw, rfl, rfl, rfl, rfl⟩, fun r => ?_⟩
      refine Rest.informed ((onlyIssues_orThrow r).bind fun _ => ?_) _
      exact (dropWorkspace_rest id w).bind fun _ => ⟨trivial, fun _ => trivial⟩
  | deleteWorkspace id u =>
      refine Informed.map ((findById_fetched id K).bind fun w K₁ _ _ => ?_)
      refine ⟨trivial, fun _ => ?_⟩
      refine Rest.informed ((dropWorkspace_rest id w).bind fun _ => ?_) _
      exact ⟨trivial, fun _ => trivial⟩
  | inviteMember w u email role =>
      refine Informed.map ((findById_fetched w K).bind fun ws K₁ _ hws => ?_)
      refine ⟨trivial, fun found => ?_⟩
      refine OnlyIssues.informed_bind free_needs (onlyIssues_orNotFound _ found)
        fun user K₂ hK₂ => ?_
      refine ⟨trivial, ?_⟩
      rintro (_ | m)
      · -- no membership of the user, after the workspace was found
        refine ⟨Or.inr (.stranger (hK₂ _ (Or.inl hws))), fun r => ?_⟩
        refine OnlyIssues.informed_bind free_needs (onlyIssues_orThrow r) fun _ K₃ _ => ?_
        refine ⟨trivial, fun invited => ?_⟩
        refine OnlyIssues.informed_bind free_needs (onlyIssues_orNotFound _ invited)
          fun _ K₄ _ => ?_
        refine ⟨trivial, fun _ => ?_⟩
        refine Rest.informed ((rest_lift (notification_quiet _ _ _ _)).bind fun _ => ?_) _
        exact ⟨trivial, fun _ => trivial⟩
      · trivial
  | getMembers w => exact Informed.map ⟨trivial, fun _ => trivial⟩

/-! ### What of it the invariants need -/

/-- What a call knows of the tables. -/
inductive Known where
  /-- A task object with the identity of this row was loaded. -/
  | task (row : Task)
  /-- A workspace object was loaded. -/
  | workspace (w : LoadedWorkspace)
  /-- A workspace of this id was found. -/
  | seen (workspaceId : String)
  /-- A workspace of this id was found, and afterwards no membership of the user. -/
  | stranger (workspaceId userId : String)

/-- Tasks and workspaces are saved and cached as they were loaded, but for the columns
    that an update may change, and memberships are saved where none was found. -/
def apiLearning : Learning ApiOp ApiOp.Res Known where
  needs K
    | .task (.save e) => ∃ t, K (.task t) ∧ SameIdentity t e.row
    | .task (.cacheSet _ (.task t) _) => K (.task t.row)
    | .task (.cacheSet key (.workspace w) _) =>
        K (.workspace w) ∧ ∀ id, key = getCacheKey id false → K (.seen id)
    | .saveWorkspace w => ∃ w₀, K (.workspace w₀) ∧ w₀.row.id = w.row.id ∧
        w₀.row.ownerId = w.row.ownerId ∧ w₀.owner = w.owner
    | .saveMember m => K (.stranger m.workspaceId m.userId)
    | _ => True
  learns K
    | .task (.cacheGet _), some (.task t), x => x = .task t.row
    | .task (.cacheGet key), some (.workspace w), x =>
        x = .workspace w ∨ ∃ id, key = getCacheKey id false ∧ x = .seen id
    | .task (.findOne _ _), some t, x => x = .task t.row
    | .findWorkspaceById id, some w, x => x = .workspace w ∨ x = .seen id
    | .findWorkspaceBySlug _, some w, x => x = .workspace w
    | .findMember w u, none, x => K (.seen w) ∧ x = .stranger w u
    | _, _, _ => False

/-- What the fetches come to. -/
def gathered (K : Fetched → Prop) : Known → Prop
  | .task row => ∃ id, K (.task id row)
  | .workspace w => (∃ id, K (.byId id w)) ∨ ∃ slug, K (.bySlug slug w)
  | .seen id => ∃ w, K (.byId id w)
  | .stranger w u => K (.stranger w u)

/-- A task lies under its own key. -/
theorem Entry.of_task {K : Fetched → Prop} {key : String} {t : LoadedTask}
    (h : Entry K key (.task t)) : ∃ id, key = getTaskCacheKey id ∧ K (.task id t.row) := by
  cases h with
  | task known => exact ⟨_, rfl, known⟩

/-- Projects lie under the key of a workspace. -/
theorem Entry.of_projects {K : Fetched → Prop} {key : String} {l : List Project}
    (h : Entry K key (.projects l)) : ∃ w, key = getProjectsCacheKey w ∧ K (.projects w l) := by
  cases h with
  | projects known => exact ⟨_, rfl, known⟩

/-- A workspace lies under its id or under its slug. -/
theorem Entry.of_workspace {K : Fetched → Prop} {key : String} {w : LoadedWorkspace}
    (h : Entry K key (.workspace w)) :
    (∃ id, key = getCacheKey id false ∧ K (.byId id w)) ∨
      ∃ slug, key = getCacheKey slug true ∧ K (.bySlug slug w) := by
  cases h with
  | byId known => exact Or.inl ⟨_, rfl, known⟩
  | bySlug known => exact Or.inr ⟨_, rfl, known⟩

/-- What is needed of the fetches, is needed of the tables. -/
theorem gathered_needs (K : Fetched → Prop) (K' : Known → Prop) (op : ApiOp)
    (hK : ∀ y, gathered K y → K' y) (h : fetchLearning.needs K op) :
    apiLearning.needs K' op := by
  cases op with
  | task op =>
      cases op with
      | save e =>
          obtain ⟨id, t, ht, hsame⟩ := h
          exact ⟨t, hK (.task t) ⟨id, ht⟩, hsame⟩
      | cacheSet key v ttl =>
          have hentry : Entry K key v := h
          cases v with
          | task t =>
              obtain ⟨id, -, ht⟩ := hentry.of_task
              exact hK (.task t.row) ⟨id, ht⟩
          | workspace w =>
              rcases hentry.of_workspace with ⟨id, rfl, hw⟩ | ⟨slug, rfl, hw⟩
              · refine ⟨hK (.workspace w) (Or.inl ⟨id, hw⟩), ?_⟩
                intro id' hkey
                rw [← idKey_injective hkey]
                exact hK (.seen id) ⟨w, hw⟩
              · refine ⟨hK (.workspace w) (Or.inr ⟨slug, hw⟩), ?_⟩
                exact fun id hkey => absurd hkey (slugKey_ne_idKey slug id)
          | _ => trivial
      | _ => trivial
  | saveWorkspace w =>
      obtain ⟨id, w₀, hw₀, hid, -, howner, hloaded⟩ := h
      exact ⟨w₀, hK (.workspace w₀) (Or.inl ⟨id, hw₀⟩), hid, howner, hloaded⟩
  | saveMember m => exact hK (.stranger _ _) h
  | _ => trivial

/-- What an answer teaches of the fetches, it teaches of the tables. -/
theorem gathered_learns (K : Fetched → Prop) (K' : Known → Prop) (op : ApiOp) (r : op.Res)
    (hK : ∀ y, gathered K y → K' y) (y : Known)
    (hy : gathered (fun x => K x ∨ fetchLearning.learns K op r x) y) :
    K' y ∨ apiLearning.learns K' op r y := by
  cases y with
  | task row =>
      obtain ⟨id, hx | hx⟩ := hy
      · exact Or.inl (hK (.task row) ⟨id, hx⟩)
      · cases hx with
        | cachedTask => exact Or.inr rfl
        | task => exact Or.inr rfl
  | workspace w =>
      rcases hy with ⟨id, hx | hx⟩ | ⟨slug, hx | hx⟩
      · exact Or.inl (hK (.workspace w) (Or.inl ⟨id, hx⟩))
      · cases hx with
        | cachedWorkspace => exact Or.inr (Or.inl rfl)
        | byId => exact Or.inr (Or.inl rfl)
      · exact Or.inl (hK (.workspace w) (Or.inr ⟨slug, hx⟩))
      · cases hx with
        | bySlug => exact Or.inr rfl
  | seen id =>
      obtain ⟨w, hx | hx⟩ := hy
      · exact Or.inl (hK (.seen id) ⟨w, hx⟩)
      · cases hx with
        | cachedWorkspace => exact Or.inr (Or.inr ⟨id, rfl, rfl⟩)
        | byId => exact Or.inr (Or.inr rfl)
  | stranger w u =>
      rcases hy with hx | hx
      · exact Or.inl (hK (.stranger w u) hx)
      · cases hx with
        | @stranger _ _ ws found => exact Or.inr ⟨hK (.seen w) ⟨ws, found⟩, rfl⟩

/-- **Calls know what they write**, as far as the tables go. -/
theorem call_informed (c : ApiCall) (K : Known → Prop) :
    Informed apiLearning (fun _ _ => True) K c.prog := by
  refine (call_fetched c fun _ => False).coarsen gathered_needs gathered_learns ?_
  rintro (row | w | id | ⟨w, u⟩) h
  · exact h.elim fun _ hx => hx.elim
  · exact h.elim (fun h => h.elim fun _ hx => hx.elim) fun h => h.elim fun _ hx => hx.elim
  · exact h.elim fun _ hx => hx.elim
  · exact h.elim

/-! ## Histories -/

/-- The state of the services, with every id that has been generated and every row that
    has been inserted into `tasks`. -/
structure ApiHistory where
  state : TaskState
  issued : List String
  made : List Task

/-- The task that an operation has inserted. -/
def madeBy : (op : ApiOp) → op.Res → List Task
  | .task (.insert _), .ok row => [row]
  | _, _ => []

/-- The id that a step generates: none that has been generated before. -/
def ApiHistory.fresh (h : ApiHistory) (ω : Choice) : Choice :=
  if ω.newId ∈ h.issued then { ω with newId := "" } else ω

theorem fresh_newId {h : ApiHistory} {ω : Choice} (hid : (h.fresh ω).newId ≠ "") :
    (h.fresh ω).newId = ω.newId ∧ ω.newId ∉ h.issued := by
  unfold ApiHistory.fresh at hid ⊢
  by_cases hω : ω.newId ∈ h.issued
  · rw [if_pos hω] at hid
    exact absurd rfl hid
  · rw [if_neg hω]
    exact ⟨rfl, hω⟩

/-- The operations, with fresh ids. -/
def historyExec (pg : Postgres) (ω : Choice) (op : ApiOp) (h : ApiHistory) :
    ApiHistory × op.Res :=
  let (state, answer) := apiExec pg (h.fresh ω) op h.state
  ({ state, issued := ω.newId :: h.issued, made := h.made ++ madeBy op answer }, answer)

/-- Two users, and nothing else. -/
def emptyPlatform : ApiHistory :=
  ⟨{ office with
      db := { office.db with workspaces := [], members := [], projects := [] } }, ["a", "b"], []⟩

/-! ## What a step does -/

/-- What becomes of the tasks, and which of them is new. -/
inductive TaskStep (ω : Choice) (s : TaskState) : ApiOp → List Task → List Task → Prop where
  | same (op : ApiOp) : TaskStep ω s op s.db.tasks []
  | insert {n : NewTask} {row : Task} (wanted : row = n.row ω.newId (s.now + ω.elapsed))
      (new : lookup Task.id row.id s.db.tasks = none)
      (keys : foreignKeysHold s.db row = true) (named : row.id ≠ "") :
      TaskStep ω s (.task (.insert n)) (s.db.tasks ++ [row]) [row]
  | reinsert {e : TaskEntity} {row : Task} (wanted : e.toRow none = some row)
      (gone : lookup Task.id row.id s.db.tasks = none)
      (keys : foreignKeysHold s.db row = true) :
      TaskStep ω s (.task (.save e)) (s.db.tasks ++ [row]) []
  | update {e : TaskEntity} {old new : Task} (wanted : e.toRow (some old) = some new)
      (stored : lookup Task.id new.id s.db.tasks = some old)
      (keys : foreignKeysHold s.db new = true) :
      TaskStep ω s (.task (.save e))
        (replace Task.id (updateRow (s.now + ω.elapsed) old new) s.db.tasks) []
  | softRemove {t : LoadedTask} {row : Task}
      (stored : lookup Task.id t.row.id s.db.tasks = some row) :
      TaskStep ω s (.task (.softRemove t))
        (replace Task.id (markDeleted (s.now + ω.elapsed) row) s.db.tasks) []
  | removeProject (id : String) :
      TaskStep ω s (.removeProject id) (removeProject s.db id).tasks []
  | removeWorkspace (id : String) :
      TaskStep ω s (.removeWorkspace id) (removeWorkspace s.db id).tasks []

theorem commit_tasks {α : Type} {s : TaskState} {r : Except HttpError (Database × α)}
    (h : ∀ db a, r = .ok (db, a) → db.tasks = s.db.tasks) :
    (commit s r).1.db.tasks = s.db.tasks := by
  cases r with
  | error e => rfl
  | ok out => exact h out.1 out.2 rfl

/-- One operation on the tasks. -/
theorem apiExec_tasks (pg : Postgres) (ω : Choice) (op : ApiOp) (s : TaskState) :
    TaskStep ω s op (apiExec pg ω op s).1.db.tasks (madeBy op (apiExec pg ω op s).2) := by
  have hsame : ∀ {l : List Task}, l = s.db.tasks → TaskStep ω s op l [] :=
    fun h => h ▸ .same op
  cases op with
  | task op =>
      show TaskStep ω s (.task op) (exec pg.text ω op s).1.db.tasks
        (madeBy (.task op) (exec pg.text ω op s).2)
      have heffect := exec_effect pg.text ω op s
      generalize (exec pg.text ω op s).1.db = db, (exec pg.text ω op s).2 = answer
        at heffect ⊢
      cases heffect with
      | same op notifications answer kept =>
          have hmade : madeBy (.task op) answer = [] := by
            cases op with
            | insert n =>
                cases answer with
                | error e => rfl
                | ok row => exact absurd trivial kept
            | _ => rfl
          rw [hmade]
          exact .same _
      | insert wanted new keys named => exact .insert wanted new keys named
      | reinsert wanted gone keys => exact .reinsert wanted gone keys
      | update wanted stored writes keys => exact .update wanted stored keys
      | softRemove stored => exact .softRemove stored
  | removeProject id => exact .removeProject id
  | removeWorkspace id => exact .removeWorkspace id
  | insertWorkspace n sl o =>
      exact hsame (commit_tasks fun _ _ h => by
        rw [(insertWorkspace_ok h).2.2.2]
        rfl)
  | saveWorkspace w =>
      exact hsame (commit_tasks fun _ _ h => by
        rw [(saveWorkspace_ok h).1]
        rfl)
  | saveMember m =>
      exact hsame (commit_tasks fun _ _ h => by
        rw [(saveMember_ok h).2.1]
        rfl)
  | insertProject w n d st =>
      exact hsame (commit_tasks fun _ _ h => by
        rw [(insertProject_ok h).2.2.2.2]
        rfl)
  | saveProject p =>
      exact hsame (commit_tasks fun _ _ h => by
        rw [(saveProject_ok h).1]
        rfl)
  | insertComment t u m =>
      exact hsame (commit_tasks fun _ _ h => by
        rw [(insertComment_ok h).2]
        rfl)
  | _ => exact hsame rfl

/-- An entry found after an operation was there before, or the operation put it there. -/
theorem apiExec_cache (pg : Postgres) {ω : Choice} {op : ApiOp} {s : TaskState} {k : String}
    {v : CacheValue} (h : (apiExec pg ω op s).1.cache k = some v) :
    s.cache k = some v ∨ ∃ ttl, op = .task (.cacheSet k v ttl) := by
  have hcommit : ∀ {α : Type} (r : Except HttpError (Database × α)),
      (commit (s.wait ω) r).1.cache k = some v → s.cache k = some v := by
    intro α r hr
    cases r with
    | error e => exact wait_cache hr
    | ok out => exact wait_cache hr
  cases op with
  | task op =>
      rcases exec_cache pg.text h with h | ⟨ttl, rfl⟩
      · exact Or.inl h
      · exact Or.inr ⟨ttl, rfl⟩
  | insertWorkspace n sl o => exact Or.inl (hcommit _ h)
  | saveWorkspace w => exact Or.inl (hcommit _ h)
  | saveMember m => exact Or.inl (hcommit _ h)
  | insertProject w n d st => exact Or.inl (hcommit _ h)
  | saveProject p => exact Or.inl (hcommit _ h)
  | insertComment t u m => exact Or.inl (hcommit _ h)
  | _ => exact Or.inl (wait_cache h)

/-! ## What a step teaches -/

/-- All that an answer can teach, and where it comes from. -/
inductive Taught (K : Known → Prop) (s : TaskState) : Known → Prop where
  | cachedTask {key : String} {t : LoadedTask} (hit : s.cache key = some (.task t)) :
      Taught K s (.task t.row)
  | storedTask {id w : String} {t : LoadedTask} (found : findOneTask s.db id w = some t) :
      Taught K s (.task t.row)
  | cachedWorkspace {key : String} {w : LoadedWorkspace}
      (hit : s.cache key = some (.workspace w)) : Taught K s (.workspace w)
  | cachedId {id : String} {w : LoadedWorkspace}
      (hit : s.cache (getCacheKey id false) = some (.workspace w)) : Taught K s (.seen id)
  | storedWorkspace {row : Workspace} (stored : row ∈ s.db.workspaces) :
      Taught K s (.workspace (loadWorkspace s.db row))
  | storedId {row : Workspace} (stored : row ∈ s.db.workspaces) : Taught K s (.seen row.id)
  | noMember {w u : String} (seen : K (.seen w)) (absent : findMember s.db w u = none) :
      Taught K s (.stranger w u)

theorem taught {pg : Postgres} {ω : Choice} {op : ApiOp} {s : TaskState} {K : Known → Prop}
    {x : Known} (h : apiLearning.learns K op (apiExec pg ω op s).2 x) : Taught K s x := by
  cases op with
  | task op =>
      cases op with
      | cacheGet key =>
          have h' : apiLearning.learns K (.task (.cacheGet key)) ((s.wait ω).cache key) x := h
          cases hc : (s.wait ω).cache key with
          | none =>
              rw [hc] at h'
              exact h'.elim
          | some v =>
              rw [hc] at h'
              cases v with
              | task t =>
                  have hx : x = .task t.row := h'
                  rw [hx]
                  exact .cachedTask (wait_cache hc)
              | workspace w =>
                  rcases h' with rfl | ⟨id, rfl, rfl⟩
                  · exact .cachedWorkspace (wait_cache hc)
                  · exact .cachedId (wait_cache hc)
              | _ => exact h'.elim
      | findOne id w =>
          have h' : apiLearning.learns K (.task (.findOne id w)) (findOneTask s.db id w) x := h
          cases hf : findOneTask s.db id w with
          | none =>
              rw [hf] at h'
              exact h'.elim
          | some t =>
              rw [hf] at h'
              have hx : x = .task t.row := h'
              rw [hx]
              exact .storedTask hf
      | _ => exact h.elim
  | findWorkspaceById id =>
      have h' : apiLearning.learns K (.findWorkspaceById id)
        ((s.db.workspaces.find? fun w => w.id = id).map (loadWorkspace s.db)) x := h
      cases hf : s.db.workspaces.find? fun w => w.id = id with
      | none =>
          rw [hf] at h'
          exact h'.elim
      | some row =>
          rw [hf] at h'
          have hid : row.id = id := by simpa using List.find?_some hf
          rcases h' with rfl | rfl
          · exact .storedWorkspace (List.mem_of_find?_eq_some hf)
          · rw [← hid]
            exact .storedId (List.mem_of_find?_eq_some hf)
  | findWorkspaceBySlug slug =>
      have h' : apiLearning.learns K (.findWorkspaceBySlug slug)
        ((s.db.workspaces.find? fun w => w.slug = slug).map (loadWorkspace s.db)) x := h
      cases hf : s.db.workspaces.find? fun w => w.slug = slug with
      | none =>
          rw [hf] at h'
          exact h'.elim
      | some row =>
          rw [hf] at h'
          have hx : x = .workspace (loadWorkspace s.db row) := h'
          rw [hx]
          exact .storedWorkspace (List.mem_of_find?_eq_some hf)
  | findMember w u =>
      have h' : apiLearning.learns K (.findMember w u) (findMember s.db w u) x := h
      cases hf : findMember s.db w u with
      | some m =>
          rw [hf] at h'
          exact h'.elim
      | none =>
          rw [hf] at h'
          rw [h'.2]
          exact .noMember h'.1 hf
  | _ => exact h.elim

end PlatformApi
