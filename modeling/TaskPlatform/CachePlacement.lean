import TaskPlatform.AccessControl
import TaskPlatform.CachedReads
import TaskPlatform.TaskForest
import TaskPlatform.TaskTenancy
import TaskPlatform.WorkspaceAdmins

/-! # What lies under the keys of the cache

    Every fill puts something under a key that is what the key asks for: a task under its
    own id, the tasks of a workspace under a list key of it (`Entry`).  It stays so, since an
    id, once generated, belongs to one row: the workspace and the project of a task never
    change, and neither does the slug of a workspace.  So whatever requests and calls have
    run, and in whatever order their steps have come, the cache is placed as the guards of a
    request need it (`cachePlaced_run`). -/

namespace PlatformApi

open AsyncProgram Interleaving PlatformEntities PlatformTasks RowTable

/-! ## Requests -/

/-- What the guards issue. -/
inductive Guarding : ApiOp → Prop where
  | findWorkspaceBySlug (slug : String) : Guarding (.findWorkspaceBySlug slug)
  | findMember (w u : String) : Guarding (.findMember w u)

/-- The workspace is looked up by its slug, if at all. -/
theorem resolveWorkspace_issues (r : Request) : OnlyIssues Guarding (resolveWorkspace r) := by
  have hslug : OnlyIssues Guarding (resolveWorkspace.resolveSlug r) := by
    unfold resolveWorkspace.resolveSlug
    cases r.slug with
    | undefined => trivial
    | other => trivial
    | text slug =>
        by_cases hempty : slug = ""
        · simp only [if_pos hempty]
          trivial
        · simp only [if_neg hempty]
          exact OnlyIssues.await (.findWorkspaceBySlug slug) fun _ => trivial
  unfold resolveWorkspace
  cases r.workspaceId with
  | undefined => exact hslug
  | other => trivial
  | text id =>
      by_cases hempty : id = ""
      · simp only [if_pos hempty]
        exact hslug
      · simp only [if_neg hempty]
        trivial

theorem checkMember_issues (w u : String) : OnlyIssues Guarding (checkMember w u) := by
  refine OnlyIssues.await (.findMember w u) ?_
  rintro (_ | m) <;> trivial

theorem checkPermissions_issues (required : List Permission) (attached : Attached) :
    OnlyIssues Guarding (checkPermissions required attached) := by
  unfold checkPermissions
  split <;> trivial

/-- Without required roles. -/
theorem roleGuard_issues (r : Request) : OnlyIssues Guarding (roleGuard none r) := by
  unfold roleGuard
  cases r.user with
  | none => trivial
  | some user =>
      refine (resolveWorkspace_issues r).bind ?_
      rintro (_ | w)
      · trivial
      · exact (checkMember_issues w user.userId).bind fun _ => trivial

theorem permissionGuard_issues (required : List Permission) (r : Request)
    (attached : Option Attached) : OnlyIssues Guarding (permissionGuard required r attached) := by
  unfold permissionGuard
  by_cases hnone : required = []
  · rw [if_pos hnone]
    trivial
  · rw [if_neg hnone]
    cases r.user with
    | none => trivial
    | some user =>
        cases attached with
        | some attached => exact checkPermissions_issues required attached
        | none =>
            refine (resolveWorkspace_issues r).bind ?_
            rintro (_ | w)
            · trivial
            · exact (checkMember_issues w user.userId).bind fun _ =>
                checkPermissions_issues required _

/-- A comment writes no task and fills nothing. -/
theorem addComment_rest (w t u message : String) : Rest (addComment w t u message) := by
  refine (addComment_issues w t u message).mono ?_
  rintro op (_ | _ | _ | _ | _ | _ | ⟨-, (_ | _ | _ | _)⟩) <;> trivial

/-- **Handlers know what they write and cache.** -/
theorem handler_fetched (u : String) (route : Route) (K : Fetched → Prop) :
    Informed fetchLearning (fun _ _ => True) K (route.handler u) := by
  have hsubtasks : ∀ query w t, Rest (Route.handler.subtaskHandler query w t) :=
    fun _ _ _ => ⟨trivial, fun answer => (onlyIssues_orThrow answer).bind fun _ => trivial⟩
  cases route with
  | createTask w p dto => exact call_fetched (.task (.createTask w.text p.text u dto)) K
  | listTasks w p query => exact call_fetched (.task (.getTasks w.text p.text query)) K
  | getTask w t => exact call_fetched (.task (.findById t.text w.text)) K
  | updateTask w t dto => exact call_fetched (.task (.updateTask t.text w.text u dto)) K
  | deleteTask w t => exact call_fetched (.task (.deleteTask t.text w.text u)) K
  | presignAttachment w t uuid filename => trivial
  | getTree w t => exact (hsubtasks .tree w t).informed K
  | getDescendants w t => exact (hsubtasks .descendants w t).informed K
  | getAncestors w t => exact (hsubtasks .ancestors w t).informed K
  | createProject w name description =>
      exact call_fetched (.createProject w.text u name description) K
  | listProjects w => exact call_fetched (.getProjects w.text) K
  | getProject w p => exact call_fetched (.findProjectById p.text w.text) K
  | updateProject w p name description status =>
      exact call_fetched (.updateProject p.text w.text u name description status) K
  | deleteProject w p => exact call_fetched (.deleteProject p.text w.text u) K
  | addComment w t message => exact ((addComment_rest w.text t.text u message).informed K).map
  | listComments w t =>
      have hrest : Rest (getComments t.text w.text) :=
        ⟨trivial, fun found => (onlyIssues_orNotFound _ found).bind fun _ =>
          ⟨trivial, fun _ => trivial⟩⟩
      exact (hrest.informed K).map
  | dashboardSummary w => exact ⟨trivial, fun _ => trivial⟩
  | getById w => exact call_fetched (.findById w.text) K
  | updateWorkspace w name => exact call_fetched (.updateWorkspace w.text u name) K
  | deleteWorkspace w => exact call_fetched (.deleteWorkspace w.text u) K
  | inviteMember w email role => exact call_fetched (.inviteMember w.text u email role) K
  | getMembers w => exact call_fetched (.getMembers w.text) K
  | getBySlug slug => exact call_fetched (.findBySlug slug.text) K

/-- A request knows what it writes and caches: the guards write and cache nothing. -/
theorem handle_fetched (r : ApiRequest) (K : Fetched → Prop) :
    Informed fetchLearning (fun _ _ => True) K (handle r) := by
  have hneeds : ∀ (K : Fetched → Prop) op, Guarding op → fetchLearning.needs K op := by
    rintro K op (_ | _) <;> trivial
  unfold handle
  cases r.user with
  | none => trivial
  | some user =>
      refine OnlyIssues.informed_bind hneeds (roleGuard_issues r.request) fun attached K₁ _ => ?_
      refine OnlyIssues.informed_bind hneeds (permissionGuard_issues _ _ attached)
        fun _ K₂ _ => ?_
      exact handler_fetched user.userId r.route K₂

/-! ## What has been made -/

/-- The workspace that an operation has inserted. -/
def foundedBy : (op : ApiOp) → op.Res → List Workspace
  | .insertWorkspace _ _ _, .ok w => [w]
  | _, _ => []

/-- The operations, with a record of the workspaces that have been inserted. -/
def placedExec (pg : Postgres) : Choice → (op : ApiOp) →
    ApiHistory × List Workspace → (ApiHistory × List Workspace) × op.Res :=
  recording (historyExec pg) fun op r workspaces => workspaces ++ foundedBy op r

/-- A workspace with this id and this slug has been inserted. -/
def Founded (workspaces : List Workspace) (w : Workspace) : Prop :=
  ∃ b ∈ workspaces, b.id = w.id ∧ b.slug = w.slug

/-- What was fetched is what the query asked for. -/
def Rightly (x : ApiHistory × List Workspace) : Fetched → Prop
  | .task id t => t.id = id ∧ Made x.1 t
  | .page w page => ∀ item ∈ page.items, item.row.workspaceId = w ∧ IsId w
  | .projects w l => ∀ p ∈ l, p.workspaceId = w
  | .byId id w => w.row.id = id ∧ Founded x.2 w.row
  | .bySlug slug w => w.row.slug = slug ∧ Founded x.2 w.row
  | .stranger _ _ => True

/-- Every id that has been generated can be told from the words in the keys. -/
def IdsOnly (x : ApiHistory × List Workspace) : Prop := ∀ id ∈ x.1.issued, IsId id

/-- What every run keeps true: rows are those that were inserted, and entries are what
    their keys ask for. -/
structure Placed (x : ApiHistory × List Workspace) : Prop where
  rooted : Rooted x.1
  tenants : ∀ m ∈ x.1.made, IsId m.workspaceId
  ids : RowTable.Unique Workspace.id x.2
  issued : ∀ b ∈ x.2, b.id ∈ x.1.issued
  rows : ∀ w ∈ x.1.state.db.workspaces, Founded x.2 w
  entries : ∀ k v, x.1.state.cache k = some v → Entry (Rightly x) k v

/-- More may be known of an entry. -/
theorem Entry.mono {K K' : Fetched → Prop} {k : String} {v : CacheValue} (h : Entry K k v)
    (hK : ∀ y, K y → K' y) : Entry K' k v := by
  cases h with
  | task known => exact .task (hK _ known)
  | page known => exact .page (hK _ known)
  | projects known => exact .projects (hK _ known)
  | byId known => exact .byId (hK _ known)
  | bySlug known => exact .bySlug (hK _ known)

/-! ## Keys -/

/-- A list key ends in the order, and the key of the projects does not. -/
theorem listKey_ne_projectsKey (w p : String) (query : QueryTaskDto) (w' : String) :
    getListCacheKey w p query ≠ getProjectsCacheKey w' := by
  intro h
  have hlast := congrArg (fun key : String => key.toList.getLast?) h
  unfold getListCacheKey getProjectsCacheKey at hlast
  simp only [String.toList_append, List.getLast?_append] at hlast
  cases hsort : query.sortOrder with
  | none =>
      rw [hsort] at hlast
      exact absurd hlast (by simp)
  | some order =>
      rw [hsort] at hlast
      cases order with
      | asc => exact absurd hlast (by simp [SortOrder.text])
      | desc => exact absurd hlast (by simp [SortOrder.text])

/-- A key of projects has one workspace. -/
theorem projectsKey_injective {w w' : String}
    (h : getProjectsCacheKey w = getProjectsCacheKey w') : w = w' := by
  have h' : ("workspace:" ++ w ++ ":projects").toList
      = ("workspace:" ++ w' ++ ":projects").toList := congrArg _ h
  rw [String.toList_append, String.toList_append, String.toList_append,
    String.toList_append] at h'
  exact String.toList_injective (List.append_cancel_left (List.append_cancel_right h'))

/-- A key by slug has one slug. -/
theorem slugKey_injective {slug slug' : String}
    (h : getCacheKey slug true = getCacheKey slug' true) : slug = slug' := by
  have h' : ("workspace:slug:" ++ slug).toList = ("workspace:slug:" ++ slug').toList :=
    congrArg _ h
  rw [String.toList_append, String.toList_append] at h'
  exact String.toList_injective (List.append_cancel_left h')

/-! ## Where the entries are -/

section Placement

variable {x : ApiHistory × List Workspace}

/-- The id of a workspace has been generated. -/
theorem Placed.workspace_id (h : Placed x) (hids : IdsOnly x) {w : Workspace}
    (hw : w ∈ x.1.state.db.workspaces) : IsId w.id := by
  obtain ⟨b, hb, hid, -⟩ := h.rows w hw
  rw [← hid]
  exact hids b.id (h.issued b hb)

/-- Rows and copies of one workspace have one slug. -/
theorem Placed.slug_eq (h : Placed x) {w w' : Workspace} (hw : Founded x.2 w)
    (hw' : Founded x.2 w') (hid : w.id = w'.id) : w.slug = w'.slug := by
  obtain ⟨b, hb, hbid, hslug⟩ := hw
  obtain ⟨b', hb', hbid', hslug'⟩ := hw'
  have hsame : b = b' := h.ids.eq_of_key hb hb' (hbid.trans (hid.trans hbid'.symm))
  rw [← hslug, ← hslug', hsame]

/-- Rows and copies of one task are of one workspace and one project. -/
theorem Placed.identity_eq (h : Placed x) {t t' : Task} (ht : Made x.1 t) (ht' : Made x.1 t')
    (hid : t.id = t'.id) : SameIdentity t t' := by
  obtain ⟨m, hm, hmt⟩ := ht
  obtain ⟨m', hm', hmt'⟩ := ht'
  have hsame : m = m' := h.rooted.ids.eq_of_key hm hm' (hmt.id.trans (hid.trans hmt'.id.symm))
  rw [hsame] at hmt
  exact hmt.symm.trans hmt'

/-- Under a list key of a workspace there are pages of the workspace only. -/
theorem Placed.list (h : Placed x) (hids : IdsOnly x) {w : Workspace}
    (hw : w ∈ x.1.state.db.workspaces) {p : String} {query : QueryTaskDto} {v : CacheValue}
    (hv : x.1.state.cache (getListCacheKey w.id p query) = some v) :
    ∃ page, v = .tasks page ∧ ∀ item ∈ page.items, item.row.workspaceId = w.id := by
  have hid := h.workspace_id hids hw
  obtain ⟨rest, hkey⟩ := listKey_place w.id p query
  have hentry := h.entries _ _ hv
  generalize hk : getListCacheKey w.id p query = key at hentry
  cases hentry with
  | task known => exact absurd hk.symm (taskKey_ne_listKey _ _ _ _)
  | @page w' p' query' page known =>
      refine ⟨page, rfl, ?_⟩
      intro item hitem
      obtain ⟨hitemw, hid'⟩ := known item hitem
      rw [hitemw, listKey_workspace hid.1 hid'.1 hk]
  | projects known => exact absurd hk (listKey_ne_projectsKey _ _ _ _)
  | byId known => exact absurd (hk.symm.trans hkey) (word_ne_id hid)
  | bySlug known => exact absurd (hk.symm.trans hkey) (word_ne_id hid)

/-- **Placed entries are where the guards need them.** -/
theorem Placed.cachePlaced (h : Placed x) (hids : IdsOnly x) : CachePlaced x.1.state where
  task id t ht := by
    obtain ⟨id', hkey, hid, hmade⟩ := (h.entries _ _ ht).of_task
    obtain rfl := getTaskCacheKey_injective hkey
    refine ⟨hid, ?_⟩
    intro r hr hrid
    exact h.identity_eq (h.rooted.rows r hr) hmade (hrid.trans hid.symm)
  list w hw p query v hv := h.list hids hw hv
  projects w hw l hl := by
    obtain ⟨w', hkey, hrows⟩ := (h.entries _ _ hl).of_projects
    rw [projectsKey_injective hkey]
    exact hrows
  byId id w hw := by
    rcases (h.entries _ _ hw).of_workspace with ⟨id', hkey, hid, -⟩ | ⟨slug, hkey, -⟩
    · rw [idKey_injective hkey]
      exact hid
    · exact absurd hkey.symm (slugKey_ne_idKey slug id)
  bySlug slug w hw := by
    rcases (h.entries _ _ hw).of_workspace with
      ⟨id, hkey, -⟩ | ⟨slug', hkey, hslug, hfounded⟩
    · exact absurd hkey (slugKey_ne_idKey slug id)
    · intro w' hw' hid
      rw [h.slug_eq (h.rows w' hw') hfounded hid, slugKey_injective hkey]
      exact hslug

end Placement

/-! ## Steps -/

section Steps

variable {x : ApiHistory × List Workspace} {pg : Postgres} {ω : Choice} {op : ApiOp}
  {K : Fetched → Prop}

/-- What has been inserted has been inserted. -/
theorem Founded.mono {workspaces more : List Workspace} {w : Workspace}
    (h : Founded workspaces w) : Founded (workspaces ++ more) w := by
  obtain ⟨b, hb, hsame⟩ := h
  exact ⟨b, List.mem_append_left _ hb, hsame⟩

/-- What is right stays right. -/
theorem rightly_step {y : Fetched} (h : Rightly x y) : Rightly (placedExec pg ω op x).1 y := by
  cases y with
  | task id t => exact ⟨h.1, made_step pg ω op h.2⟩
  | page w page => exact h
  | projects w l => exact h
  | byId id w => exact ⟨h.1, h.2.mono⟩
  | bySlug slug w => exact ⟨h.1, h.2.mono⟩
  | stranger w u => trivial

/-- What an answer teaches is right. -/
theorem learned_rightly (hx : Placed x) {y : Fetched}
    (h : Learned K op (apiExec pg ω op x.1.state).2 y) : Rightly x y := by
  generalize hr : (apiExec pg ω op x.1.state).2 = r at h
  cases h with
  | @cachedTask id t =>
      obtain ⟨id', hkey, hright⟩ := (hx.entries _ _ (wait_cache hr)).of_task
      rw [getTaskCacheKey_injective hkey]
      exact hright
  | @cachedWorkspace id w =>
      rcases (hx.entries _ _ (wait_cache hr)).of_workspace with
        ⟨id', hkey, hright⟩ | ⟨slug, hkey, -⟩
      · rw [idKey_injective hkey]
        exact hright
      · exact absurd hkey.symm (slugKey_ne_idKey slug id)
  | @task id w t =>
      have hrow : findOneTask x.1.state.db id w = some t := hr
      obtain ⟨-, hmem, hid, -⟩ := findOneTask_some hrow
      exact ⟨hid, hx.rooted.rows _ hmem⟩
  | @page w p query page =>
      have hpage : listTasks pg.text x.1.state.db w p query = page := hr
      rw [← hpage]
      intro item hitem
      have hw := listTasks_workspace pg.text hitem
      -- the task was made in a workspace that was there
      obtain ⟨m, hm, hsame⟩ := hx.rooted.rows _ (mem_listTasks pg.text hitem).1
      exact ⟨hw, (hsame.workspaceId.trans hw) ▸ hx.tenants m hm⟩
  | @projects w l =>
      have hl : findActiveProjects x.1.state.db w = l := hr
      rw [← hl]
      exact fun p hp => findActiveProjects_workspace hp
  | @byId id w =>
      obtain ⟨row, hrow, rfl⟩ := Option.map_eq_some_iff.mp hr
      have hid : row.id = id := by simpa using List.find?_some hrow
      exact ⟨hid, hx.rows row (List.mem_of_find?_eq_some hrow)⟩
  | @bySlug slug w =>
      obtain ⟨row, hrow, rfl⟩ := Option.map_eq_some_iff.mp hr
      have hslug : row.slug = slug := by simpa using List.find?_some hrow
      exact ⟨hslug, hx.rows row (List.mem_of_find?_eq_some hrow)⟩
  | stranger found => trivial

/-- The workspaces after a step are those before it, a new one, or one that was saved. -/
theorem founded_cases (pg : Postgres) (ω : Choice) (op : ApiOp) (s : TaskState) :
    (∃ w, foundedBy op (apiExec pg ω op s).2 = [w] ∧ w.id = ω.newId ∧ ω.newId ≠ "" ∧
        (apiExec pg ω op s).1.db.workspaces = s.db.workspaces ++ [w]) ∨
      foundedBy op (apiExec pg ω op s).2 = [] ∧
        ∀ row ∈ (apiExec pg ω op s).1.db.workspaces, row ∈ s.db.workspaces ∨
          ∃ w, op = .saveWorkspace w ∧ row = LoadedWorkspace.toRow w := by
  by_cases hop : ∃ name slug ownerId, op = .insertWorkspace name slug ownerId
  · obtain ⟨name, slug, ownerId, rfl⟩ := hop
    cases hinsert : insertWorkspace s.db ω.newId name slug ownerId with
    | error e =>
        have hout : apiExec pg ω (.insertWorkspace name slug ownerId) s
            = (s.wait ω, .error e) := by
          show commit (s.wait ω) (insertWorkspace s.db ω.newId name slug ownerId) = _
          rw [hinsert]
          rfl
        rw [hout]
        exact Or.inr ⟨rfl, fun row hrow => Or.inl hrow⟩
    | ok out =>
        obtain ⟨db, w⟩ := out
        have hout : apiExec pg ω (.insertWorkspace name slug ownerId) s
            = ({ s.wait ω with db := db }, .ok w) := by
          show commit (s.wait ω) (insertWorkspace s.db ω.newId name slug ownerId) = _
          rw [hinsert]
          rfl
        obtain ⟨hid, -, rfl, rfl⟩ := insertWorkspace_ok hinsert
        rw [hout]
        exact Or.inl ⟨_, rfl, rfl, hid, rfl⟩
  · refine Or.inr ⟨?_, ?_⟩
    · cases op with
      | insertWorkspace name slug ownerId => exact absurd ⟨name, slug, ownerId, rfl⟩ hop
      | _ => rfl
    · intro row hrow
      have hstep := apiExec_workspaces pg ω op s
      generalize (apiExec pg ω op s).1.db.workspaces = ws,
        (apiExec pg ω op s).1.db.members = ms at hrow hstep
      cases hstep with
      | same op => exact Or.inl hrow
      | @insert name slug ownerId named => exact absurd ⟨name, slug, ownerId, rfl⟩ hop
      | @save w accepted =>
          rcases eq_or_mem_of_mem_upsert hrow with hrow | hrow
          · exact Or.inr ⟨w, rfl, hrow⟩
          · exact Or.inl hrow
      | saveMember placed => exact Or.inl hrow
      | remove id => exact Or.inl (List.mem_of_mem_filter hrow)

/-- A task is made in a workspace that is there. -/
theorem tenants_step (hx : Placed x) (hids : IdsOnly x) {tasks new : List Task}
    (hstep : TaskStep (x.1.fresh ω) x.1.state op tasks new) :
    ∀ m ∈ x.1.made ++ new, IsId m.workspaceId := by
  intro m hm
  rcases List.mem_append.mp hm with hm | hm
  · exact hx.tenants m hm
  · cases hstep with
    | @insert n row wanted hnew keys named =>
        rw [List.mem_singleton.mp hm]
        obtain ⟨w, hw, hid⟩ := (foreignKeysHold_iff.mp keys).1
        rw [← hid]
        exact hx.workspace_id hids hw
    | _ => exact absurd hm List.not_mem_nil

/-- No generated id is forgotten. -/
theorem issued_step (h : IdsOnly (placedExec pg ω op x).1) : IdsOnly x :=
  fun id hid => h id (List.mem_cons_of_mem _ hid)

variable (pg ω) in
/-- The record of the workspaces after a step. -/
theorem Placed.workspaces_step (hx : Placed x) (hK : ∀ y, K y → Rightly x y)
    (hneeds : fetchLearning.needs K op) :
    RowTable.Unique Workspace.id (placedExec pg ω op x).1.2 ∧
      (∀ b ∈ (placedExec pg ω op x).1.2, b.id ∈ (placedExec pg ω op x).1.1.issued) ∧
      ∀ w ∈ (placedExec pg ω op x).1.1.state.db.workspaces,
        Founded (placedExec pg ω op x).1.2 w := by
  have hissued : ∀ b ∈ x.2, b.id ∈ ω.newId :: x.1.issued :=
    fun b hb => List.mem_cons_of_mem _ (hx.issued b hb)
  have hrecord : (placedExec pg ω op x).1.2
      = x.2 ++ foundedBy op (apiExec pg (x.1.fresh ω) op x.1.state).2 := rfl
  have htable : (placedExec pg ω op x).1.1.state.db.workspaces
      = (apiExec pg (x.1.fresh ω) op x.1.state).1.db.workspaces := rfl
  have hgenerated : (placedExec pg ω op x).1.1.issued = ω.newId :: x.1.issued := rfl
  rw [hrecord, htable, hgenerated]
  rcases founded_cases pg (x.1.fresh ω) op x.1.state with
    ⟨w, hfounded, hid, hnamed, hrows⟩ | ⟨hfounded, hrows⟩
  · obtain ⟨hω, hfresh⟩ := fresh_newId hnamed
    have hnew : lookup Workspace.id w.id x.2 = none := by
      rw [lookup_eq_none]
      intro b hb heq
      rw [hid, hω] at heq
      exact hfresh (heq ▸ hx.issued b hb)
    rw [hfounded, hrows]
    refine ⟨hx.ids.append hnew, ?_, ?_⟩
    · intro b hb
      rcases List.mem_append.mp hb with hb | hb
      · exact hissued b hb
      · rw [List.mem_singleton.mp hb, hid, hω]
        exact List.mem_cons_self ..
    · intro w' hw'
      rcases List.mem_append.mp hw' with hw' | hw'
      · exact (hx.rows w' hw').mono
      · rw [List.mem_singleton.mp hw']
        exact ⟨w, List.mem_append_right _ (List.mem_singleton.mpr rfl), rfl, rfl⟩
  · rw [hfounded, List.append_nil]
    refine ⟨hx.ids, hissued, ?_⟩
    intro row hrow
    rcases hrows row hrow with hrow | ⟨w, rfl, rfl⟩
    · exact hx.rows row hrow
    · -- what is saved has the id and the slug that were loaded
      obtain ⟨id, w₀, hw₀, hid, hslug, -⟩ := hneeds
      obtain ⟨-, b, hb, hbid, hbslug⟩ := hK _ hw₀
      exact ⟨b, hb, hbid.trans hid, hbslug.trans hslug⟩

/-- An entry after a step was there before, or is what the program put there. -/
theorem Placed.entries_step (hx : Placed x) (hK : ∀ y, K y → Rightly x y)
    (hneeds : fetchLearning.needs K op) {k : String} {v : CacheValue}
    (h : (placedExec pg ω op x).1.1.state.cache k = some v) :
    Entry (Rightly (placedExec pg ω op x).1) k v := by
  rcases apiExec_cache pg h with hold | ⟨ttl, rfl⟩
  · exact (hx.entries k v hold).mono fun _ => rightly_step
  · have hentry : Entry K k v := hneeds
    exact hentry.mono fun y hy => rightly_step (hK y hy)

/-- **A step keeps rows and entries placed.** -/
theorem placed_step (hx : Placed x) (hids : IdsOnly x) (hK : ∀ y, K y → Rightly x y)
    (hneeds : fetchLearning.needs K op) : Placed (placedExec pg ω op x).1 := by
  have hsave : ∀ e, op = .task (.save e) → Made x.1 e.row := by
    rintro e rfl
    obtain ⟨id, t, ht, hsame⟩ := hneeds
    exact (hK _ ht).2.same hsame
  have htasks := apiExec_tasks pg (x.1.fresh ω) op x.1.state
  obtain ⟨hmade, hparents, hissued, hstored, hrows⟩ := hx.rooted.tasks_step hsave htasks
  obtain ⟨hunique, hnamed, hfounded⟩ := hx.workspaces_step pg ω hK hneeds
  have hentries : ∀ k v, (placedExec pg ω op x).1.1.state.cache k = some v →
      Entry (Rightly (placedExec pg ω op x).1) k v := fun _ _ => hx.entries_step hK hneeds
  refine ⟨⟨hmade, hparents, hissued, hstored, hrows, ?_⟩, tenants_step hx hids htasks,
    hunique, hnamed, hfounded, hentries⟩
  intro k t hkt
  obtain ⟨id, -, -, ht⟩ := (hentries k _ hkt).of_task
  exact ht

end Steps

/-- **Whatever is fetched is right, and whatever is cached is placed**, as long as every
    generated id is a uuid. -/
theorem placed_sound (pg : Postgres) :
    Sound (placedExec pg) fetchLearning (fun x y => IdsOnly x → Rightly x y)
      (fun x => IdsOnly x → Placed x) fun _ _ => True := by
  constructor
  intro ω op x K hx hK hneeds _
  refine ⟨?_, ?_, ?_⟩
  · intro hids
    have hold := issued_step hids
    exact placed_step (hx hold) hold (fun y hy => hK y hy hold) hneeds
  · exact fun y hy hids => rightly_step (hy (issued_step hids))
  · exact fun y hy hids => rightly_step (learned_rightly (hx (issued_step hids)) hy)

/-! ## Runs -/

/-- Requests and calls of the services about to begin. -/
def requestPool {σ : Type} (s : σ) (requests : List ApiRequest) (calls : List ApiCall) :
    Pool ApiOp ApiOp.Res HttpError Reply σ :=
  ⟨s, requests.map handle ++ calls.map ApiCall.prog⟩

/-- The ids that have been generated are those of before and those of the schedule. -/
theorem issued_run (pg : Postgres) (c : Pool ApiOp ApiOp.Res HttpError Reply ApiHistory)
    (l : List (Nat × Choice)) {id : String}
    (h : id ∈ (run (historyExec pg) c l).shared.issued) :
    id ∈ c.shared.issued ∨ ∃ e ∈ l, e.2.newId = id := by
  induction l generalizing c with
  | nil => exact Or.inl h
  | cons e rest ih =>
      obtain ⟨i, ω⟩ := e
      rcases ih _ h with hid | ⟨e, he, hid⟩
      · rcases step_cases (historyExec pg) c i ω with h0 | ⟨op, k, -, h0⟩
        · rw [h0] at hid
          exact Or.inl hid
        · rw [h0] at hid
          rcases List.mem_cons.mp hid with hid | hid
          · exact Or.inr ⟨(i, ω), List.mem_cons_self .., hid.symm⟩
          · exact Or.inl hid
      · exact Or.inr ⟨e, List.mem_cons_of_mem _ he, hid⟩

/-- **The cache stays placed.**  From a platform without workspaces and an empty cache,
    after any steps of any requests and calls, in any order, every entry of the cache lies
    where the guards of a request need it; the ids that are generated are uuids. -/
theorem cachePlaced_run (pg : Postgres) (h : ApiHistory) (htasks : NoTasks h)
    (hworkspaces : NoWorkspaces h) (hcache : ∀ k, h.state.cache k = none)
    (hissued : ∀ id ∈ h.issued, IsId id) (requests : List ApiRequest) (calls : List ApiCall)
    (l : List (Nat × Choice)) (hids : ∀ e ∈ l, IsId e.2.newId) :
    CachePlaced (run (historyExec pg) (requestPool h requests calls) l).shared.state := by
  let c : Pool ApiOp ApiOp.Res HttpError Reply (ApiHistory × List Workspace) :=
    requestPool (h, []) requests calls
  have hstart : Placed (h, []) := by
    refine ⟨htasks.rooted, ?_, List.nodup_nil, fun b hb => absurd hb List.not_mem_nil, ?_, ?_⟩
    · intro m hm
      rw [htasks.made] at hm
      exact absurd hm List.not_mem_nil
    · intro w hw
      rw [hworkspaces.workspaces] at hw
      exact absurd hw List.not_mem_nil
    · intro k v hv
      rw [hcache k] at hv
      cases hv
  have hinformed : ∀ p ∈ c.calls,
      Informed fetchLearning (fun _ _ => True) (fun _ => False) p := by
    intro p hp
    rcases List.mem_append.mp hp with hp | hp
    · obtain ⟨r, -, rfl⟩ := List.mem_map.mp hp
      exact handle_fetched r _
    · obtain ⟨call, -, rfl⟩ := List.mem_map.mp hp
      exact call_fetched call _
  have hplaced := (placed_sound pg).run hinformed
    (meets_of_forall _ (fun _ _ _ _ _ => trivial) _ l) fun _ => hstart
  have hrun : unrecorded (run (placedExec pg) c l)
      = run (historyExec pg) (requestPool h requests calls) l := run_recording _ _ c l
  have hstate : (run (historyExec pg) (requestPool h requests calls) l).shared
      = (run (placedExec pg) c l).shared.1 := (congrArg Pool.shared hrun).symm
  have hgenerated : IdsOnly (run (placedExec pg) c l).shared := by
    intro id hid
    rw [← hstate] at hid
    rcases issued_run pg _ l hid with hid | ⟨e, he, rfl⟩
    · exact hissued id hid
    · exact hids e he
  rw [hstate]
  exact (hplaced hgenerated).cachePlaced hgenerated

end PlatformApi
