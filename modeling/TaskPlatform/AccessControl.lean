import TaskPlatform.WorkspaceHandlers

/-! # Access control

    The guards check one workspace and the handler serves another in three ways:
    `slug/:slug` with a workspace id somewhere else in the request, the hierarchy
    queries where links lead out of the workspace, and the deletions whose cascade
    does.  `access_checked_iff` says that these are all: a request serves members
    only exactly when what it strays to is the user's too.  The cache that it starts from
    is one as runs of requests leave it (`cachePlaced_run`). -/

namespace PlatformApi

open AsyncProgram Interleaving PlatformEntities PlatformTasks RowTable RecursiveQuery
  Relation

/-! ## What the guards check, and what is served -/

/-- A request, run in any way the outside world decides, returns or changes data of an
    existing workspace only if its user is a member of that workspace. -/
def ServesMembers (pg : Postgres) (s : TaskState) (r : ApiRequest) : Prop :=
  ∀ (ω : Nat → Choice) (X : String), (∃ w ∈ s.db.workspaces, w.id = X) →
    Served X s.db (solo (apiExec pg) ω (handle r) s).2
      (solo (apiExec pg) ω (handle r) s).1.db →
    ∃ user, r.user = some user ∧ IsMember s.db user.userId X

/-- The guards let the handler run for the workspace that the request names by its
    id. -/
structure Admitted (db : Database) (r : ApiRequest) (user : AuthUser) : Prop where
  verified : r.user = some user
  member : ∃ id m, r.request.workspaceId = .text id ∧ id ≠ "" ∧
    findMember db id user.userId = some m ∧
    ∀ perm ∈ r.route.permissions, perm ∈ rolePermissions m.role

/-- What a handler reaches besides the workspace in its path. -/
def Strays (db : Database) (X : String) : Route → Prop
  | .getTree w t => ∃ x, Reaches db t.text w.text x .tree ∧ x.workspaceId = X
  | .getDescendants w t => ∃ x, Reaches db t.text w.text x .descendants ∧ x.workspaceId = X
  | .getAncestors w t => ∃ x, Reaches db t.text w.text x .ancestors ∧ x.workspaceId = X
  | .deleteProject w p => (∃ q ∈ db.projects, q.id = p.text ∧ q.workspaceId = w.text) ∧
      ∃ x, HangsBelow db (fun t => t.projectId = p.text) x ∧ x.workspaceId = X
  | .deleteWorkspace w => ∃ x, HangsBelow db (ofWorkspace db w.text) x ∧ x.workspaceId = X
  | .getBySlug slug => ∃ w ∈ db.workspaces, w.slug = slug.text ∧ w.id = X
  | _ => False

section Access

variable {pg : Postgres} {s : TaskState}

theorem isMember_of_find {db : Database} {w u : String} {m : WorkspaceMember}
    (h : findMember db w u = some m) : IsMember db u w := by
  obtain ⟨hmem, hkey⟩ := lookup_mem h
  exact ⟨m, hmem, congrArg Prod.fst hkey, congrArg Prod.snd hkey⟩

/-- Membership of an existing workspace is what the guard finds. -/
theorem servesMembers_iff {r : ApiRequest} :
    ServesMembers pg s r ↔
      Confined pg (fun X => ∃ user, r.user = some user ∧ IsMember s.db user.userId X)
        (handle r) s := by
  have hne : Nonempty Choice := ⟨{}⟩
  unfold Confined
  rw [ensures_iff]
  rfl

/-! ## Routes with a workspace id -/

/-- The handler, if the permissions are there. -/
theorem permissionGuard_attached (required : List Permission) (r : Request)
    (attached : Attached) (hr : r.user ≠ none) :
    permissionGuard required r (some attached) = checkPermissions required attached := by
  unfold permissionGuard
  by_cases hnil : required = []
  · rw [if_pos hnil, hnil]
    rfl
  · rw [if_neg hnil]
    cases hu : r.user with
    | none => exact absurd hu hr
    | some user => rfl

/-- The guards and the handler, for a request that names a workspace by its id. -/
theorem handle_named {r : ApiRequest} {user : AuthUser} (hu : r.user = some user)
    {id : String} (hid : r.request.workspaceId = .text id) (hne : id ≠ "") :
    handle r = .await (.findMember id user.userId) fun member =>
      match member with
      | none => .fail (.forbidden "You are not a member of this workspace")
      | some m => checkPermissions r.route.permissions ⟨id, m⟩ >>= fun _ =>
          r.route.handler user.userId := by
  have hres : resolveWorkspace r.request = .done (some id) := by
    unfold resolveWorkspace
    rw [hid]
    exact if_neg hne
  have hru : r.request.user = some user := hu
  unfold handle
  rw [hu]
  simp only [roleGuard, hru, hres, Prog.done_bind, checkMember, Prog.perform_bind,
    Prog.await_bind]
  congr 1
  funext member
  cases member with
  | none => rfl
  | some m =>
      simp only [Prog.done_bind]
      rw [permissionGuard_attached _ _ _ (by rw [hru]; exact Option.some_ne_none _)]

theorem Confined.mono {P P' : String → Prop} {p : ApiProg Reply} (h : Confined pg P p s)
    (hP : ∀ x, (∃ w ∈ s.db.workspaces, w.id = x) → P x → P' x) : Confined pg P' p s :=
  Ensures.mono h fun _ _ hr x hex hx => hP x hex (hr x hex hx)

/-- **What a handler serves**: the workspace in its path, and where it strays to. -/
theorem handler_confined (hdb : WellFormed s.db) (hc : CachePlaced s) {route : Route}
    {w : Segment} (hroute : route.workspace = .inl w)
    (hw : ∃ ws ∈ s.db.workspaces, ws.id = w.text) (u : String) :
    Confined pg (fun x => x = w.text ∨ Strays s.db x route) (route.handler u) s := by
  have hpath : ∀ {p : ApiProg Reply}, Confined pg (fun x => x = w.text) p s →
      Confined pg (fun x => x = w.text ∨ Strays s.db x route) p s :=
    fun h => h.mono fun x _ hx => Or.inl hx
  have hids := hdb.taskIds
  have hstray : ∀ {p : ApiProg Reply}, Confined pg (fun x => Strays s.db x route) p s →
      Confined pg (fun x => x = w.text ∨ Strays s.db x route) p s :=
    fun h => h.mono fun x _ hx => Or.inr hx
  cases route with
  | createTask w' p dto => cases hroute; exact hpath (confined_task createTask_ends)
  | listTasks w' p query => cases hroute; exact hpath (confined_task (getTasks_ends hc hw))
  | getTask w' t => cases hroute; exact hpath (confined_task (findById_ends hids hc))
  | updateTask w' t dto => cases hroute; exact hpath (confined_task (updateTask_ends hids hc))
  | deleteTask w' t => cases hroute; exact hpath (confined_task (deleteTask_ends hids hc))
  | presignAttachment w' t uuid filename =>
      exact servesOnly_ok (fun x _ hx => absurd hx not_false) fun x _ => rfl
  | getTree w' t => cases hroute; exact hstray (subtasks_confined hdb .tree w t)
  | getDescendants w' t => cases hroute; exact hstray (subtasks_confined hdb .descendants w t)
  | getAncestors w' t => cases hroute; exact hstray (subtasks_confined hdb .ancestors w t)
  | createProject w' name description => cases hroute; exact hpath createProject_confined
  | listProjects w' => cases hroute; exact hpath (getProjects_confined hc hw)
  | getProject w' p => cases hroute; exact hpath findProjectById_confined
  | updateProject w' p name description status =>
      cases hroute
      exact hpath (updateProject_confined hdb.projectIds)
  | deleteProject w' p => cases hroute; exact deleteProject_confined hdb
  | addComment w' t message => cases hroute; exact hpath (addComment_confined hids)
  | listComments w' t => cases hroute; exact hpath (getComments_confined hids)
  | dashboardSummary w' => cases hroute; exact hpath count_confined
  | getById w' => cases hroute; exact hpath (findById_confined hc)
  | updateWorkspace w' name => cases hroute; exact hpath (updateWorkspace_confined hc)
  | deleteWorkspace w' => cases hroute; exact deleteWorkspace_confined hdb hc
  | inviteMember w' email role => cases hroute; exact hpath (inviteMember_confined hc)
  | getMembers w' => cases hroute; exact hpath getMembers_confined
  | getBySlug slug => cases hroute

/-- And it does stray there, in every run. -/
theorem handler_strays (hdb : WellFormed s.db) (hc : CachePlaced s) {route : Route}
    {w : Segment} (hroute : route.workspace = .inl w)
    (hw : ∃ ws ∈ s.db.workspaces, ws.id = w.text) (u : String) {X : String}
    (hX : Strays s.db X route) :
    Ensures (apiExec pg) (fun r s' => Served X s.db r s'.db) (route.handler u) s := by
  cases route with
  | getTree w' t => exact subtasks_strays hdb .tree w' t hX
  | getDescendants w' t => exact subtasks_strays hdb .descendants w' t hX
  | getAncestors w' t => exact subtasks_strays hdb .ancestors w' t hX
  | deleteProject w' p =>
      obtain ⟨hq, x, hx, rfl⟩ := hX
      exact deleteProject_strays hdb hq hx
  | deleteWorkspace w' =>
      cases hroute
      obtain ⟨x, hx, rfl⟩ := hX
      exact deleteWorkspace_strays hdb hc hw hx
  | getBySlug slug => cases hroute
  | _ => exact absurd hX not_false

/-- A workspace that a handler strays to exists. -/
theorem strays_exists {db : Database} (hdb : WellFormed db) {route : Route} {X : String}
    (hX : Strays db X route) : ∃ w ∈ db.workspaces, w.id = X := by
  cases route with
  | getTree w t =>
      obtain ⟨x, hx, rfl⟩ := hX
      exact hdb.placed x hx.stored
  | getDescendants w t =>
      obtain ⟨x, hx, rfl⟩ := hX
      exact hdb.placed x hx.stored
  | getAncestors w t =>
      obtain ⟨x, hx, rfl⟩ := hX
      exact hdb.placed x hx.stored
  | deleteProject w p =>
      obtain ⟨-, x, hx, rfl⟩ := hX
      exact hdb.placed x hx.stored
  | deleteWorkspace w =>
      obtain ⟨x, hx, rfl⟩ := hX
      exact hdb.placed x hx.stored
  | getBySlug slug =>
      obtain ⟨w, hw, -, hid⟩ := hX
      exact ⟨w, hw, hid⟩
  | _ => exact absurd hX not_false

/-! ## Requests that name a workspace by its id -/

/-- What the guards let through, the handler runs for. -/
theorem handle_confined {r : ApiRequest} {user : AuthUser} (hu : r.user = some user)
    {id : String} (hid : r.request.workspaceId = .text id) (hne : id ≠ "")
    {P : String → Prop}
    (hrun : ∀ ω, Admitted s.db r user → IsMember s.db user.userId id →
      Confined pg P (r.route.handler user.userId) (s.wait ω)) :
    Confined pg P (handle r) s := by
  rw [handle_named hu hid hne]
  intro ω
  cases hm : (apiExec pg ω (.findMember id user.userId) s).2 with
  | none => exact servesOnly_error fun x _ => rfl
  | some m =>
      show Ensures (apiExec pg) _ (checkPermissions r.route.permissions ⟨id, m⟩ >>= _) _
      unfold checkPermissions
      by_cases hperm : (r.route.permissions.all fun perm => perm ∈ rolePermissions m.role)
          = true
      · rw [if_pos hperm]
        refine hrun ω ⟨hu, id, m, hid, hne, hm, ?_⟩ (isMember_of_find hm)
        exact fun perm hp => of_decide_eq_true (List.all_eq_true.mp hperm perm hp)
      · rw [if_neg hperm]
        exact servesOnly_error fun x _ => rfl

/-- An admitted request reaches the handler. -/
theorem handle_reaches {Q : Except HttpError Reply → TaskState → Prop} {r : ApiRequest}
    {user : AuthUser} (h : Ensures (apiExec pg) Q (handle r) s)
    (hadm : Admitted s.db r user) :
    Ensures (apiExec pg) Q (r.route.handler user.userId) (s.wait {}) := by
  obtain ⟨hu, id, m, hid, hne, hm, hperm⟩ := hadm
  rw [handle_named hu hid hne] at h
  have hrun := h {}
  have hanswer : (apiExec pg {} (.findMember id user.userId) s).2 = some m := hm
  rw [hanswer] at hrun
  have hall : (r.route.permissions.all fun perm => perm ∈ rolePermissions m.role) = true :=
    List.all_eq_true.mpr fun perm hp => decide_eq_true (hperm perm hp)
  simp only [checkPermissions, if_pos hall] at hrun
  exact hrun

theorem request_workspaceId {r : ApiRequest} {w : Segment} (h : r.route.workspace = .inl w) :
    r.request.workspaceId = .text w.text := by
  show (r.route.params.workspaceId).or _ = _
  unfold Route.params
  rw [h]
  exact if_neg w.nonempty

/-! ## The workspace by slug -/

theorem slug_route {route : Route} {slug : Segment} (h : route.workspace = .inr slug) :
    route = .getBySlug slug := by
  cases route with
  | getBySlug slug' =>
      cases h
      rfl
  | _ => cases h

/-- A request that names no workspace id is checked for the workspace of the slug. -/
theorem handle_slug_confined (hdb : WellFormed s.db) (hc : CachePlaced s) {r : ApiRequest}
    {user : AuthUser} (hu : r.user = some user) {slug : Segment}
    (hroute : r.route = .getBySlug slug)
    (hres : resolveWorkspace r.request = resolveWorkspace.resolveSlug r.request) :
    Confined pg (fun X => ∃ user, r.user = some user ∧ IsMember s.db user.userId X)
      (handle r) s := by
  have hslug : r.request.slug = .text slug.text := by
    show (r.route.params.slug).or _ = _
    rw [hroute]
    exact if_neg slug.nonempty
  have hru : r.request.user = some user := hu
  have hperm : r.route.permissions = [] := by rw [hroute]; rfl
  -- what is read belongs to the workspace that has the slug, if any
  have hserve : ∀ (s' : TaskState) (P : String → Prop), s'.db = s.db → CachePlaced s' →
      (∀ w ∈ s.db.workspaces, w.slug = slug.text → P w.id) →
      Ensures (apiExec pg) (ServesOnly P s.db) (r.route.handler user.userId) s' := by
    intro s' P hs' hc' hP
    rw [hroute, ← hs']
    refine (findBySlug_confined (hs' ▸ hdb.workspaceIds) hc').mono ?_
    rintro x - ⟨w, hw, hws, rfl⟩
    exact hP w (hs' ▸ hw) hws
  have hhandle : handle r = .await (.findWorkspaceBySlug slug.text) fun workspace =>
      match workspace with
      | none => r.route.handler user.userId
      | some ws => .await (.findMember ws.row.id user.userId) fun member =>
          match member with
          | none => .fail (.forbidden "You are not a member of this workspace")
          | some _ => r.route.handler user.userId := by
    unfold handle
    rw [hu]
    simp only [roleGuard, hru, hres, resolveWorkspace.resolveSlug, hslug,
      if_neg slug.nonempty, hperm, permissionGuard, Prog.perform_bind, Prog.await_bind,
      Prog.done_bind, if_true]
    congr 1
    funext workspace
    cases workspace with
    | none => rfl
    | some ws =>
        simp only [checkMember, Option.map_some, Prog.perform_bind, Prog.await_bind]
        congr 1
        funext member
        cases member <;> rfl
  rw [hhandle]
  intro ω₁
  cases hws : (apiExec pg ω₁ (.findWorkspaceBySlug slug.text) s).2 with
  | none =>
      refine hserve _ _ rfl (hc.wait ω₁) ?_
      intro w hw hwslug
      have hnone := List.find?_eq_none.mp (Option.map_eq_none_iff.mp hws) w hw
      exact absurd (decide_eq_true hwslug) hnone
  | some ws =>
      obtain ⟨row, hrow, rfl⟩ := Option.map_eq_some_iff.mp hws
      intro ω₂
      cases hm : (apiExec pg ω₂ (.findMember (loadWorkspace s.db row).row.id user.userId)
          (apiExec pg ω₁ (.findWorkspaceBySlug slug.text) s).1).2 with
      | none => exact servesOnly_error fun x _ => rfl
      | some m =>
          refine hserve _ _ rfl ((hc.wait ω₁).wait ω₂) ?_
          intro w hw hwslug
          have hrowslug := List.find?_some hrow
          rw [hdb.slugs.eq_of_key hw (List.mem_of_find?_eq_some hrow)
            (hwslug.trans (of_decide_eq_true hrowslug).symm)]
          exact ⟨user, hu, isMember_of_find hm⟩

/-- A request for a workspace by its slug serves members only, also where it names an id
    beside the slug, if what the handler then strays to is a workspace of the user. -/
theorem handle_by_slug (hdb : WellFormed s.db) (hc : CachePlaced s) {r : ApiRequest}
    {user : AuthUser} (hu : r.user = some user) {slug : Segment}
    (hroute : r.route = .getBySlug slug)
    (h : Admitted s.db r user → ∀ X, Strays s.db X r.route → IsMember s.db user.userId X) :
    Confined pg (fun X => ∃ user, r.user = some user ∧ IsMember s.db user.userId X)
      (handle r) s := by
  cases hid : r.request.workspaceId with
  | undefined =>
      refine handle_slug_confined hdb hc hu hroute ?_
      unfold resolveWorkspace
      rw [hid]
  | other =>
      have hfail : handle r = .fail .queryFailed := by
        have hru : r.request.user = some user := hu
        unfold handle
        rw [hu]
        simp only [roleGuard, hru, resolveWorkspace, hid, Prog.fail_bind]
      rw [hfail]
      exact servesOnly_error fun x _ => rfl
  | text id =>
      by_cases hne : id = ""
      · refine handle_slug_confined hdb hc hu hroute ?_
        unfold resolveWorkspace
        rw [hid]
        exact if_pos hne
      · -- the membership is looked up for the id, and the workspace by the slug
        refine handle_confined hu hid hne ?_
        intro ω hadm _
        rw [hroute]
        have hserved : Confined pg _ (Reply.workspace <$> findBySlug slug.text) (s.wait ω) :=
          findBySlug_confined hdb.workspaceIds (hc.wait ω)
        refine hserved.mono ?_
        intro x _ hx
        refine ⟨user, hu, h hadm x ?_⟩
        rw [hroute]
        exact hx

/-! ## Access control -/

/-- What an admitted request is confined to holds of every workspace that its handler
    strays to. -/
theorem Confined.strays {P : String → Prop} {r : ApiRequest} (h : Confined pg P (handle r) s)
    (hdb : WellFormed s.db) (hc : CachePlaced s) {user : AuthUser}
    (hadm : Admitted s.db r user) {X : String} (hX : Strays s.db X r.route) : P X := by
  have hex := strays_exists hdb hX
  have hrun := handle_reaches h hadm
  cases hw : r.route.workspace with
  | inl w =>
      obtain ⟨-, id, m, hid, -, hm, -⟩ := hadm
      rw [request_workspaceId hw] at hid
      cases hid
      obtain ⟨hmem, hkey⟩ := lookup_mem hm
      obtain ⟨ws, hws, hwid⟩ := hdb.members m hmem
      have hwhere : ws.id = w.text := hwid.trans (congrArg Prod.fst hkey)
      have hne : Nonempty Choice := ⟨{}⟩
      have hcw : CachePlaced (s.wait {}) := hc.wait {}
      obtain ⟨out, s', hserved, honly⟩ := Ensures.meet (handler_strays (s := s.wait {}) hdb
        hcw hw ⟨ws, hws, hwhere⟩ user.userId hX) hrun
      exact honly X hex hserved
  | inr slug =>
      have hroute := slug_route hw
      rw [hroute] at hrun hX
      obtain ⟨ws, hws, hslug, rfl⟩ := hX
      -- the copies of the slug have run out, so the row is read
      obtain ⟨s', hout⟩ := findBySlug_expired hrun hdb.slugs hws hslug
      exact hout _ hex (Or.inl ⟨.workspace (loadWorkspace s.db ws), rfl, rfl⟩)

/-- **When access control holds.**  Over a well-formed database and a cache that holds
    what the services put there, a request is served with data of its user's workspaces
    only, exactly when the handler, if the guards let it run for a workspace named by
    id, strays to workspaces of the user only. -/
theorem access_checked_iff (pg : Postgres) (s : TaskState) (hdb : WellFormed s.db)
    (hc : CachePlaced s) (r : ApiRequest) :
    ServesMembers pg s r ↔
      ∀ user, Admitted s.db r user → ∀ X, Strays s.db X r.route →
        IsMember s.db user.userId X := by
  rw [servesMembers_iff]
  constructor
  · intro h user hadm X hX
    obtain ⟨user', hu', hmem⟩ := h.strays hdb hc hadm hX
    rw [hadm.verified] at hu'
    cases hu'
    exact hmem
  · intro h
    cases hu : r.user with
    | none =>
        have hfail : handle r = .fail (.unauthorized "Invalid or expired access token") := by
          unfold handle
          rw [hu]
        rw [hfail]
        exact servesOnly_error fun x _ => rfl
    | some user =>
        rw [← hu]
        cases hw : r.route.workspace with
        | inl w =>
            refine handle_confined hu (request_workspaceId hw) w.nonempty ?_
            intro ω hadm hmem
            have ⟨m, hm, hmw, _⟩ := hmem
            obtain ⟨ws, hws, hwid⟩ := hdb.members m hm
            have hdbw : WellFormed (s.wait ω).db := hdb
            have hserved : Confined pg _ (r.route.handler user.userId) (s.wait ω) :=
              handler_confined hdbw (hc.wait ω) hw ⟨ws, hws, hwid.trans hmw⟩ user.userId
            refine hserved.mono ?_
            rintro x - (rfl | hx)
            · exact ⟨user, hu, hmem⟩
            · exact ⟨user, hu, h user hadm x hx⟩
        | inr slug => exact handle_by_slug hdb hc hu (slug_route hw) (h user)

/-- An empty cache holds nothing wrong. -/
theorem cachePlaced_empty {s : TaskState} (h : ∀ k, s.cache k = none) : CachePlaced s := by
  constructor
  · intro id t ht
    rw [h] at ht
    cases ht
  · intro w hw p q v hv
    rw [h] at hv
    cases hv
  · intro w hw l hl
    rw [h] at hl
    cases hl
  · intro id w hw
    rw [h] at hw
    cases hw
  · intro slug w hw
    rw [h] at hw
    cases hw

end Access

theorem twoTenants_wellFormed : WellFormed twoTenants.db := by
  refine ⟨by decide, by decide, by decide, List.nodup_nil, ?_, ?_, ?_, by decide⟩
  · exact fun t ht => absurd ht List.not_mem_nil
  · intro l₁ r l₂ heq
    exact absurd heq (by simp [twoTenants, office])
  · exact fun t ht => absurd ht List.not_mem_nil

/-- `GET /workspaces/slug/vault?workspaceId=..` by the first user. -/
def slugRequest (query : Named) : ApiRequest where
  route := .getBySlug ⟨"vault", by decide⟩
  user := some ⟨"a", "alice@x"⟩
  query := query

/-- `GET /workspaces/slug/work?workspaceId=w` by the same user. -/
def workRequest : ApiRequest :=
  { slugRequest { workspaceId := .text "w" } with route := .getBySlug ⟨"work", by decide⟩ }

theorem access_checked_two_tenants : ServesMembers plainPostgres twoTenants workRequest := by
  refine (access_checked_iff plainPostgres twoTenants twoTenants_wellFormed
    (cachePlaced_empty fun _ => rfl) workRequest).mpr ?_
  rintro user hadmitted X ⟨w, hw, hslug, rfl⟩
  obtain rfl := Option.some.inj hadmitted.verified
  have hone : ∀ w ∈ twoTenants.db.workspaces, w.slug = "work" → w.id = "w" := by decide
  rw [hone w hw hslug]
  exact ⟨⟨"w", "a", .admin⟩, by decide, rfl, rfl⟩

/-- With the id of another workspace in the query string, the workspace of the slug comes
    back to a user who is no member of it. -/
theorem slug_reads_other_tenant :
    WellFormed twoTenants.db ∧ CachePlaced twoTenants ∧
      ¬ ServesMembers plainPostgres twoTenants (slugRequest { workspaceId := .text "w" }) := by
  refine ⟨twoTenants_wellFormed, cachePlaced_empty fun _ => rfl, ?_⟩
  intro h
  obtain ⟨user, hu, m, hm, hw, -⟩ := h (fun _ => {}) "v" ⟨⟨"v", "Vault", "vault", "b"⟩,
    by decide, rfl⟩ (Or.inl ⟨.workspace (loadWorkspace twoTenants.db
      ⟨"v", "Vault", "vault", "b"⟩), rfl, rfl⟩)
  have hnone : ∀ m ∈ twoTenants.db.members, m.workspaceId ≠ "v" := by decide
  exact hnone m hm hw

end PlatformApi
