import TaskPlatform.TenantHandlers

/-! # The handlers of workspaces, projects and comments

    The same for the other services: reads come back with rows of the workspace in
    the path, and saves and inserts write such rows.  A deletion of a project or a
    workspace reaches as far as its cascade. -/

namespace PlatformApi

open AsyncProgram Interleaving PlatformEntities PlatformTasks RowTable RecursiveQuery
  Relation

section Handlers

variable {pg : Postgres} {db : Database} {P : String → Prop}

/-- A statement that may be rejected, and what follows. -/
theorem ensures_commit {α β : Type} {Q : Except HttpError β → TaskState → Prop}
    {r : Except HttpError (Database × α)} {f : α → ApiProg β} {s : TaskState}
    (herr : ∀ e, Q (.error e) s)
    (hok : ∀ db a, r = .ok (db, a) → Ensures (apiExec pg) Q (f a) { s with db := db }) :
    Ensures (apiExec pg) Q (orThrow (commit s r).2 >>= f) (commit s r).1 := by
  cases r with
  | error e => exact herr e
  | ok out => exact hok out.1 out.2 rfl

/-- A row that may not be there, and what follows. -/
theorem ensures_found {α β : Type} {Q : Except HttpError β → TaskState → Prop}
    {r : Option α} {message : String} {f : α → ApiProg β} {s : TaskState}
    (herr : ∀ e, Q (.error e) s) (hok : ∀ a, r = some a → Ensures (apiExec pg) Q (f a) s) :
    Ensures (apiExec pg) Q (orNotFound message r >>= f) s := by
  cases r with
  | none => exact herr _
  | some a => exact hok a rfl

/-- A handler whose result is wrapped in a reply. -/
theorem confined_map {α : Type} {f : α → Reply} {p : ApiProg α} {s : TaskState}
    (h : Ensures (apiExec pg) (fun r s' => ServesOnly P s.db (r.map f) s') p s) :
    Confined pg P (f <$> p) s :=
  ensures_map.mpr h

/-- What is left to do after the work is quiet, under a wrapper. -/
theorem served_tail {α : Type} {f : α → Reply} {p : ApiProg α} {s : TaskState}
    (hq : OnlyIssues Quiet p)
    (hr : Returns (fun a => ∀ x, (∃ w ∈ db.workspaces, w.id = x) →
      (f a).Holds db x → P x) p)
    (h : ∀ x, ¬ P x → dataOf s.db x = dataOf db x) :
    Ensures (apiExec pg) (fun r s' => ServesOnly P db (r.map f) s') p s := by
  refine ensures_map.mp (confined_tail (onlyIssues_map hq) ?_ h)
  clear hq
  induction p with
  | done a => exact hr
  | fail e => trivial
  | await op k ih => exact fun r => ih r (hr r)

/-! ## Projects -/

theorem createProject_confined {w u name : String} {description : Option String}
    {s : TaskState} :
    Confined pg (fun x => x = w) (Reply.project <$> createProject w u name description) s := by
  refine confined_map ?_
  intro ω
  refine ensures_commit (fun e => servesOnly_error fun x _ => rfl) ?_
  intro db' p hp
  obtain ⟨helse, hw⟩ := elsewhere_insert_project hp
  refine served_tail
    ⟨not_false, fun _ => ⟨trivial, fun _ => ⟨not_false, fun _ => trivial⟩⟩⟩ ?_ helse
  exact fun _ _ _ x _ hx => hx.symm.trans hw

/-- The active projects of a workspace are projects of it. -/
theorem findActiveProjects_workspace {db : Database} {w : String} {p : Project}
    (h : p ∈ findActiveProjects db w) : p.workspaceId = w := by
  have hmem := (List.perm_insertionSort _ _).mem_iff.mp h
  have hactive := (List.mem_filter.mp hmem).2
  rw [Bool.and_eq_true, decide_eq_true_eq] at hactive
  exact hactive.1

theorem getProjects_confined {w : String} {s : TaskState} (hc : CachePlaced s)
    (hw : ∃ ws ∈ s.db.workspaces, ws.id = w) :
    Confined pg (fun x => x = w) (Reply.projects <$> getProjects w) s := by
  have hread : ∀ s₁ : TaskState, s₁.db = s.db →
      Ensures (apiExec pg) (fun r s' => ServesOnly (fun x => x = w) s.db
        (r.map Reply.projects) s')
        (do
          let projects ← ask (.findActiveProjects w)
          ask (.task (.cacheSet (getProjectsCacheKey w) (.projects projects) 300))
          .done projects) s₁ := by
    intro s₁ hs₁ ω
    refine served_tail ⟨not_false, fun _ => trivial⟩ ?_ fun x _ => by
      show dataOf s₁.db x = _
      rw [hs₁]
    rintro - x - ⟨p, hp, rfl⟩
    exact findActiveProjects_workspace hp
  refine confined_map ?_
  intro ω
  cases hv : (apiExec pg ω (.task (.cacheGet (getProjectsCacheKey w))) s).2 with
  | none => exact hread _ rfl
  | some v =>
      cases v with
      | task t => exact hread _ rfl
      | tasks page => exact hread _ rfl
      | workspace ws => exact hread _ rfl
      | projects l =>
          obtain ⟨ws, hws, rfl⟩ := hw
          refine served_tail trivial ?_ fun x _ => rfl
          rintro x - ⟨p, hp, rfl⟩
          exact hc.projects ws hws l (wait_cache hv) p hp

theorem findProject_some {id w : String} {p : Project} (h : findProject db id w = some p) :
    p ∈ db.projects ∧ p.id = id ∧ p.workspaceId = w := by
  have hrow := List.find?_some h
  rw [Bool.and_eq_true, decide_eq_true_eq, decide_eq_true_eq] at hrow
  exact ⟨List.mem_of_find?_eq_some h, hrow⟩

/-- `findById` of a project, and what follows. -/
theorem ensures_findProject {β : Type} {Q : Except HttpError β → TaskState → Prop}
    {id w : String} {f : Project → ApiProg β} {s : TaskState}
    (herr : ∀ (e : HttpError) (s' : TaskState), s'.db = s.db → Q (.error e) s')
    (hok : ∀ (p : Project) (s' : TaskState), s'.db = s.db → findProject s.db id w = some p →
      Ensures (apiExec pg) Q (f p) s') :
    Ensures (apiExec pg) Q (findProjectById id w >>= f) s := by
  intro ω
  exact ensures_found (fun e => herr e _ rfl) fun p hp => hok p _ rfl hp

theorem findProjectById_confined {id w : String} {s : TaskState} :
    Confined pg (fun x => x = w) (Reply.project <$> findProjectById id w) s := by
  refine ensures_findProject ?_ ?_
  · exact fun e s' hs' => servesOnly_error fun x _ => by rw [hs']
  · intro p s' hs' hp
    obtain ⟨-, -, hw⟩ := findProject_some hp
    exact servesOnly_ok (fun x _ hx => hx.symm.trans hw) fun x _ => by rw [hs']

theorem updateProject_confined {id w u : String} {name description status : Option String}
    {s : TaskState} (hids : Unique Project.id s.db.projects) :
    Confined pg (fun x => x = w)
      (Reply.project <$> updateProject id w u name description status) s := by
  refine confined_map (ensures_findProject ?_ ?_)
  · exact fun e s' hs' => servesOnly_error fun x _ => by rw [hs']
  · intro p s₁ hs₁ hp ω
    obtain ⟨hmem, -, hw⟩ := findProject_some hp
    refine ensures_commit (fun e => servesOnly_error fun x _ => ?_) ?_
    · show dataOf s₁.db x = _
      rw [hs₁]
    · intro db' saved hsaved
      rw [hs₁] at hsaved
      obtain ⟨helse, hback⟩ :=
        elsewhere_save_project hids hmem (by rfl) (by rfl) hsaved
      refine served_tail
        ⟨not_false, fun _ => ⟨trivial, fun _ => ⟨not_false, fun _ => trivial⟩⟩⟩ ?_ ?_
      · intro _ _ _ x _ hx
        rw [hback] at hx
        exact hx.symm.trans hw
      · rw [← hw]
        exact helse

/-! ## Comments and the dashboard -/

theorem findTask_some {id w : String} {t : Task} (h : findTask db id w = some t) :
    t ∈ db.tasks ∧ t.id = id ∧ t.workspaceId = w := by
  have hrow := List.find?_some h
  rw [Bool.and_eq_true, Bool.and_eq_true, decide_eq_true_eq, decide_eq_true_eq] at hrow
  exact ⟨List.mem_of_find?_eq_some h, hrow.1⟩

/-- A comment on a task is data of the workspace of the task only. -/
theorem commentHolds_of_task (hids : Unique Task.id db.tasks) {t : Task} (ht : t ∈ db.tasks)
    {c : Comment} (hc : c.taskId = t.id) {x : String} (h : commentHolds db x c) :
    x = t.workspaceId := by
  obtain ⟨r, hr, hid, rfl⟩ := h
  rw [hids.eq_of_key hr ht (hid.trans hc)]

/-- Nobody is told of a comment of their own. -/
theorem commentTargets_ne {task : Task} {u x : String} (h : x ∈ commentTargets task u) :
    x ≠ u := by
  have hassignee : ∀ y ∈ (truthy task.assignedTo).toList.filter (fun v => v ≠ u), y ≠ u :=
    fun y hy => of_decide_eq_true (List.mem_filter.mp hy).2
  unfold commentTargets at h
  dsimp only at h
  split at h
  · rename_i hcreator
    rcases List.mem_append.mp h with h | h
    · exact hassignee x h
    · rw [List.mem_singleton.mp h]
      exact hcreator.1
  · exact hassignee x h

/-- What a comment issues: its own statements, both logs, and the notifications of others. -/
inductive Commenting (w t u message : String) : ApiOp → Prop where
  | find : Commenting w t u message (.findTask t w)
  | insert : Commenting w t u message (.insertComment t u message)
  | load (id : String) : Commenting w t u message (.findComment id)
  | send (c : Option LoadedComment) : Commenting w t u message (.sendCommentCreated w c)
  | audit (id : String) :
      Commenting w t u message (.auditLog "COMMENT_CREATE" u (.commented id t w))
  | activity : Commenting w t u message (.task (.activityLog w "TASK" t "COMMENT_ADDED" u))
  | notify {target ty ti m : String} {op : TaskOp} (other : target ≠ u)
      (issued : Notifying target ty ti m op) : Commenting w t u message (.task op)

/-- The targets are told, one after the other. -/
theorem notifyAll_issues {F : ApiOp → Prop} (task : Task) (message : String)
    {targets : List String}
    (hF : ∀ x ∈ targets, ∀ ty ti m op, Notifying x ty ti m op → F (.task op)) :
    OnlyIssues F (notifyAll task message targets) := by
  induction targets with
  | nil => trivial
  | cons target rest ih =>
      have htold := hF target (List.mem_cons_self ..)
      refine (onlyIssues_liftTask ((notification_issues target _ _ _).mono (htold _ _ _))).bind ?_
      exact fun _ => ih fun x hx => hF x (List.mem_cons_of_mem _ hx)

/-- A comment issues nothing else. -/
theorem addComment_issues (w t u message : String) :
    OnlyIssues (Commenting w t u message) (addComment w t u message) := by
  refine OnlyIssues.await .find fun found => ?_
  refine (onlyIssues_orNotFound _ found).bind fun task => ?_
  refine OnlyIssues.await .insert fun answer => ?_
  refine (onlyIssues_orThrow answer).bind fun saved => ?_
  refine OnlyIssues.await (.load saved.id) fun loaded => ?_
  refine OnlyIssues.await (.send loaded) fun _ => ?_
  refine OnlyIssues.await (.audit saved.id) fun _ => ?_
  refine OnlyIssues.await .activity fun _ => ?_
  refine (notifyAll_issues task message ?_).bind fun _ => trivial
  exact fun x hx _ _ _ _ hop => .notify (commentTargets_ne hx) hop

theorem notifyAll_quiet (task : Task) (message : String) (targets : List String) :
    OnlyIssues Quiet (notifyAll task message targets) := by
  refine notifyAll_issues task message ?_
  rintro x - ty ti m op (_ | _ | _ | _) <;> exact not_false

theorem addComment_confined {w t u message : String} {s : TaskState}
    (hids : Unique Task.id s.db.tasks) :
    Confined pg (fun x => x = w) (Reply.comment <$> addComment w t u message) s := by
  refine confined_map ?_
  intro ω₁
  refine ensures_found (fun e => servesOnly_error fun x _ => rfl) ?_
  intro task htask ω₂
  obtain ⟨hmem, rfl, rfl⟩ := findTask_some htask
  refine ensures_commit (fun e => servesOnly_error fun x _ => rfl) ?_
  intro db' c hc
  obtain ⟨helse, hon⟩ := elsewhere_insert_comment hids hmem hc
  refine served_tail ?_ ?_ helse
  · exact ⟨trivial, fun _ => ⟨trivial, fun _ => ⟨trivial, fun _ => ⟨not_false, fun _ =>
      (notifyAll_quiet _ _ _).bind fun _ => trivial⟩⟩⟩⟩
  · have hrest : Returns (fun c' : Comment => ∀ x, (∃ w ∈ s.db.workspaces, w.id = x) →
        commentHolds s.db x c' → x = task.workspaceId)
        (notifyAll task message (commentTargets task u) >>= fun _ => .done c) :=
      Returns.bind fun _ x _ hx => commentHolds_of_task hids hmem hon hx
    exact fun _ _ _ _ => hrest

theorem getComments_confined {w t : String} {s : TaskState}
    (hids : Unique Task.id s.db.tasks) :
    Confined pg (fun x => x = w) (Reply.comments <$> getComments t w) s := by
  refine confined_map ?_
  intro ω₁
  refine ensures_found (fun e => servesOnly_error fun x _ => rfl) ?_
  intro task htask ω₂
  obtain ⟨hmem, rfl, rfl⟩ := findTask_some htask
  refine servesOnly_ok ?_ fun x _ => rfl
  rintro x - ⟨c, hc, hholds⟩
  obtain ⟨row, hrow, rfl⟩ := List.mem_map.mp hc
  have hon := (List.mem_filter.mp ((List.perm_insertionSort _ _).mem_iff.mp hrow)).2
  exact commentHolds_of_task hids hmem (of_decide_eq_true hon) hholds

theorem count_confined {w : String} {s : TaskState} :
    Confined pg (fun x => x = w) (Reply.summary <$> ask (.count w)) s := by
  intro ω
  refine servesOnly_ok ?_ fun x _ => rfl
  rintro x - (⟨p, hp, rfl⟩ | ⟨t, ht, rfl⟩)
  · exact of_decide_eq_true (List.mem_filter.mp hp).2
  · have hrow := (List.mem_filter.mp ht).2
    rw [Bool.and_eq_true, decide_eq_true_eq] at hrow
    exact hrow.1

/-! ## Workspaces -/

/-- What `findById` and `findBySlug` end in, from the cache or the database. -/
theorem findWorkspace_ends {key : String} {query : ApiOp}
    {found : query.Res → Option LoadedWorkspace}
    {R : Except HttpError LoadedWorkspace → Prop} {s : TaskState}
    (hcache : ∀ w, s.cache key = some (.workspace w) → R (.ok w))
    (hquery : ∀ ω (s' : TaskState), s'.db = s.db →
      (apiExec pg ω query s').1.db = s.db ∧
        (∀ w, found (apiExec pg ω query s').2 = some w → R (.ok w)) ∧
        (found (apiExec pg ω query s').2 = none →
          R (.error (.notFound "Workspace not found")))) :
    Ensures (apiExec pg) (fun r s' => s'.db = s.db ∧ R r) (findWorkspace key query found)
      s := by
  have hread : ∀ s₁ : TaskState, s₁.db = s.db →
      Ensures (apiExec pg) (fun r s' => s'.db = s.db ∧ R r)
        (do
          let answer ← ask query
          let workspace ← orNotFound "Workspace not found" (found answer)
          ask (.task (.cacheSet key (.workspace workspace) 3600))
          .done workspace) s₁ := by
    intro s₁ hs₁ ω₁
    obtain ⟨hdb, hfound, hmissing⟩ := hquery ω₁ s₁ hs₁
    show Ensures (apiExec pg) _ (orNotFound _ (found (apiExec pg ω₁ query s₁).2) >>= _)
      (apiExec pg ω₁ query s₁).1
    cases hw : found (apiExec pg ω₁ query s₁).2 with
    | none => exact ⟨hdb, hmissing hw⟩
    | some w => exact fun ω₂ => ⟨hdb, hfound w hw⟩
  intro ω
  cases hv : (apiExec pg ω (.task (.cacheGet key)) s).2 with
  | none => exact hread _ rfl
  | some v =>
      cases v with
      | task t => exact hread _ rfl
      | tasks page => exact hread _ rfl
      | projects l => exact hread _ rfl
      | workspace w => exact ⟨rfl, hcache w (wait_cache hv)⟩

/-- `findById` of a workspace comes back with this workspace, and throws only if there is
    none. -/
theorem findWorkspaceById_ends {id : String} {s : TaskState} (hc : CachePlaced s) :
    Ensures (apiExec pg)
      (fun r s' => s'.db = s.db ∧ (∀ w, r = .ok w → w.row.id = id) ∧
        ((∃ w ∈ s.db.workspaces, w.id = id) → ∃ w, r = .ok w))
      (PlatformApi.findById id) s := by
  refine findWorkspace_ends ?_ ?_
  · intro w hw
    refine ⟨?_, fun _ => ⟨w, rfl⟩⟩
    intro w' h
    rw [← Except.ok.inj h]
    exact hc.byId id w hw
  · intro ω s' hs'
    refine ⟨hs', ?_, ?_⟩
    · intro w hw
      obtain ⟨row, hrow, rfl⟩ := Option.map_eq_some_iff.mp hw
      have hid := List.find?_some hrow
      refine ⟨?_, fun _ => ⟨_, rfl⟩⟩
      intro w' h
      rw [← Except.ok.inj h]
      exact of_decide_eq_true hid
    · intro hw
      have hnone : ∀ row ∈ s'.db.workspaces, ¬ decide (row.id = id) = true :=
        List.find?_eq_none.mp (Option.map_eq_none_iff.mp hw)
      constructor
      · intro w h
        cases h
      · rintro ⟨row, hrow, hid⟩
        exact absurd (decide_eq_true hid) (hnone row (hs' ▸ hrow))

/-- `findBySlug` comes back with a workspace that has this slug, if it exists. -/
theorem findBySlug_ends {slug : String} {s : TaskState}
    (hids : Unique Workspace.id s.db.workspaces) (hc : CachePlaced s) :
    Ensures (apiExec pg)
      (fun r s' => s'.db = s.db ∧ ∀ w, r = .ok w → ∀ w' ∈ s.db.workspaces,
        w'.id = w.row.id → w'.slug = slug)
      (findBySlug slug) s := by
  refine findWorkspace_ends ?_ ?_
  · intro w hw w₁ h
    rw [← Except.ok.inj h]
    exact hc.bySlug slug w hw
  · intro ω s' hs'
    refine ⟨hs', ?_, fun _ w h => by cases h⟩
    intro w hw w₁ h w' hw' hid
    obtain ⟨row, hrow, rfl⟩ := Option.map_eq_some_iff.mp hw
    rw [← Except.ok.inj h] at hid
    have hmem : row ∈ s.db.workspaces := hs' ▸ List.mem_of_find?_eq_some hrow
    have hslug := List.find?_some hrow
    rw [hids.eq_of_key hw' hmem hid]
    exact of_decide_eq_true hslug

/-- A handler that starts with `findById` of its workspace. -/
theorem ensures_findWorkspaceById {β : Type} {Q : Except HttpError β → TaskState → Prop}
    {id : String} {f : LoadedWorkspace → ApiProg β} {s : TaskState} (hc : CachePlaced s)
    (herr : ∀ (e : HttpError) (s' : TaskState), s'.db = s.db →
      (∀ w ∈ s.db.workspaces, w.id ≠ id) → Q (.error e) s')
    (hok : ∀ (w : LoadedWorkspace) (s' : TaskState), s'.db = s.db → w.row.id = id →
      Ensures (apiExec pg) Q (f w) s') :
    Ensures (apiExec pg) Q (PlatformApi.findById id >>= f) s := by
  rw [ensures_bind]
  refine (findWorkspaceById_ends hc).mono ?_
  rintro (e | w) s' ⟨hs', hid, hfound⟩
  · refine herr e s' hs' ?_
    intro w hw hwid
    obtain ⟨w', h⟩ := hfound ⟨w, hw, hwid⟩
    cases h
  · exact hok w s' hs' (hid w rfl)

theorem findById_confined {w : String} {s : TaskState} (hc : CachePlaced s) :
    Confined pg (fun x => x = w) (Reply.workspace <$> PlatformApi.findById w) s := by
  refine ensures_findWorkspaceById hc ?_ ?_
  · exact fun e s' hs' _ => servesOnly_error fun x _ => by rw [hs']
  · exact fun ws s' hs' hid =>
      servesOnly_ok (fun x _ hx => hx.symm.trans hid) fun x _ => by rw [hs']

theorem findBySlug_confined {slug : String} {s : TaskState}
    (hids : Unique Workspace.id s.db.workspaces) (hc : CachePlaced s) :
    Confined pg (fun x => ∃ w ∈ s.db.workspaces, w.slug = slug ∧ w.id = x)
      (Reply.workspace <$> findBySlug slug) s := by
  refine confined_map ((findBySlug_ends hids hc).mono ?_)
  rintro (e | ws) s' ⟨hs', hslug⟩
  · exact servesOnly_error fun x _ => by rw [hs']
  · refine servesOnly_ok ?_ fun x _ => by rw [hs']
    rintro x ⟨w, hw, hid⟩ hx
    exact ⟨w, hw, hslug ws rfl w hw (hid.trans hx.symm), hid⟩

/-- In the run where the cache entry has expired, `findBySlug` returns the workspace of
    the slug. -/
theorem findBySlug_expired {Q : Except HttpError Reply → TaskState → Prop} {slug : String}
    {s : TaskState} (h : Ensures (apiExec pg) Q (Reply.workspace <$> findBySlug slug) s)
    (hslugs : Unique Workspace.slug s.db.workspaces) {w : Workspace}
    (hw : w ∈ s.db.workspaces) (hslug : w.slug = slug) :
    ∃ s', Q (.ok (.workspace (loadWorkspace s.db w))) s' := by
  have hrun := ensures_map.mp h { expired := [getCacheKey slug true] }
  have hmiss : (apiExec pg { expired := [getCacheKey slug true] }
      (.task (.cacheGet (getCacheKey slug true))) s).2 = none :=
    if_pos (List.mem_singleton.mpr rfl)
  have hfound : s.db.workspaces.find? (fun w => w.slug = slug) = some w :=
    hslug ▸ lookup_eq_some hslugs hw rfl
  rw [hmiss] at hrun
  have hread := hrun {}
  have hanswer : (apiExec pg {} (.findWorkspaceBySlug slug)
      (apiExec pg { expired := [getCacheKey slug true] }
        (.task (.cacheGet (getCacheKey slug true))) s).1).2
      = some (loadWorkspace s.db w) := by
    show (s.db.workspaces.find? _).map _ = _
    rw [hfound]
    rfl
  rw [hanswer] at hread
  exact ⟨_, hread {}⟩

theorem updateWorkspace_confined {w u name : String} {s : TaskState}
    (hc : CachePlaced s) :
    Confined pg (fun x => x = w) (Reply.workspace <$> updateWorkspace w u name) s := by
  refine confined_map (ensures_findWorkspaceById hc ?_ ?_)
  · exact fun e s' hs' _ => servesOnly_error fun x _ => by rw [hs']
  · intro ws s₁ hs₁ hid ω
    refine ensures_commit (fun e => servesOnly_error fun x _ => ?_) ?_
    · show dataOf s₁.db x = _
      rw [hs₁]
    · intro db' saved hsaved
      rw [hs₁] at hsaved
      obtain ⟨helse, hback⟩ := elsewhere_save_workspace hsaved
      refine served_tail
        ⟨not_false, fun _ => ⟨not_false, fun _ => ⟨trivial, fun _ => trivial⟩⟩⟩ ?_ ?_
      · intro _ _ _ x _ hx
        rw [hback] at hx
        exact hx.symm.trans hid
      · rw [← hid]
        exact helse

theorem inviteMember_confined {w u email : String} {role : Role} {s : TaskState}
    (hc : CachePlaced s) :
    Confined pg (fun x => x = w) (Reply.member <$> inviteMember w u email role) s := by
  refine confined_map (ensures_findWorkspaceById hc ?_ ?_)
  · exact fun e s' hs' _ => servesOnly_error fun x _ => by rw [hs']
  · intro ws s₁ hs₁ hid ω₁
    have hsame : ∀ x, dataOf s₁.db x = dataOf s.db x := fun x => by rw [hs₁]
    refine ensures_found (fun e => servesOnly_error fun x _ => hsame x) ?_
    intro user huser ω₂
    cases hm : (apiExec pg ω₂ (.findMember w user.id) (apiExec pg ω₁
      (.findUserByEmail email) s₁).1).2 with
    | some m => exact servesOnly_error fun x _ => hsame x
    | none =>
        intro ω₃
        refine ensures_commit (fun e => servesOnly_error fun x _ => hsame x) ?_
        intro db' saved hsaved
        have hsaved' : saveMember s.db ⟨w, user.id, role⟩ = .ok (db', saved) := hs₁ ▸ hsaved
        obtain ⟨helse, hback⟩ := elsewhere_save_member hsaved'
        refine served_tail ⟨trivial, ?_⟩ ?_ helse
        · rintro (_ | invited)
          · trivial
          · exact ⟨trivial, fun _ => (onlyIssues_lift (notification_quiet _ _ _ _)).bind
              fun _ => ⟨trivial, fun _ => trivial⟩⟩
        · rintro (_ | invited)
          · trivial
          · have hrest : Returns (fun m : WorkspaceMember => ∀ x,
                (∃ ws ∈ s.db.workspaces, ws.id = x) → m.workspaceId = x → x = w)
                (liftTask (createAndSendNotification user.id "WORKSPACE_MEMBER_JOINED"
                  ("Joined Workspace: " ++ ws.row.name)
                  ("You have been added to the workspace \"" ++ ws.row.name ++ "\" as a "
                    ++ role.text ++ ".")) >>= fun _ =>
                  ask (.auditLog "WORKSPACE_INVITE" u (.invited w user.id email role))
                    >>= fun _ => .done saved) := by
              refine Returns.bind fun _ _ x _ hx => ?_
              rw [hback] at hx
              exact hx.symm
            exact fun _ => hrest

theorem getMembers_confined {w : String} {s : TaskState} :
    Confined pg (fun x => x = w) (Reply.members <$> getMembers w) s := by
  intro ω
  refine servesOnly_ok ?_ fun x _ => rfl
  rintro x - ⟨m, hm, rfl⟩
  obtain ⟨row, hrow, rfl⟩ := List.mem_map.mp hm
  have hw := (List.mem_filter.mp hrow).2
  exact of_decide_eq_true hw

/-! ## Deletions -/

/-- A cascade that takes a task changes the data of its workspace for good, if what is
    left to do is quiet. -/
theorem cascade_served {α : Type} {f : α → Reply} {p : ApiProg α} {s : TaskState}
    (hdb : WellFormed db) {gone : Task → Bool} {t : Task} (ht : HangsBelow db gone t)
    (hq : OnlyIssues Quiet p)
    (hs : tasksOf s.db t.workspaceId = tasksOf (removeTasks db gone) t.workspaceId) :
    Ensures (apiExec pg) (fun r s' => Served t.workspaceId db (r.map f) s'.db) p s := by
  have hgone : t ∉ (dataOf s.db t.workspaceId).tasks := by
    show t ∉ tasksOf s.db t.workspaceId
    rw [hs]
    exact removeTasks_changes hdb.taskIds hdb.parents ht
  have hthere : t ∈ (dataOf db t.workspaceId).tasks :=
    List.mem_filter.mpr ⟨ht.stored, decide_eq_true rfl⟩
  have hkeep : ∀ ω op (s' : TaskState), Quiet op → t ∉ (dataOf s'.db t.workspaceId).tasks →
      t ∉ (dataOf (apiExec pg ω op s').1.db t.workspaceId).tasks := by
    intro ω op s' hop hI
    rw [quiet_data pg ω hop s' t.workspaceId]
    exact hI
  refine (hq.ensures hkeep (returns_any p) hgone).mono ?_
  rintro r s' ⟨hI, -⟩
  refine Or.inr ?_
  intro hsame
  rw [hsame] at hI
  exact hI hthere

/-- `DELETE /projects/:id` of a project of the workspace reaches what hangs below its
    tasks. -/
theorem deleteProject_confined {w p u : String} {s : TaskState} (hdb : WellFormed s.db) :
    Confined pg
      (fun x => x = w ∨ (∃ q ∈ s.db.projects, q.id = p ∧ q.workspaceId = w) ∧
        ∃ t, HangsBelow s.db (fun t => t.projectId = p) t ∧ t.workspaceId = x)
      ((fun _ => Reply.empty) <$> deleteProject p w u) s := by
  refine confined_map (ensures_findProject ?_ ?_)
  · exact fun e s' hs' => servesOnly_error fun x _ => by rw [hs']
  · intro q s₁ hs₁ hq ω
    obtain ⟨hmem, rfl, rfl⟩ := findProject_some hq
    refine served_tail ⟨not_false, fun _ =>
      ⟨trivial, fun _ => ⟨not_false, fun _ => trivial⟩⟩⟩
      (fun _ _ _ _ _ hx => absurd hx not_false) ?_
    intro x hx
    show dataOf (removeProject s₁.db q.id) x = _
    rw [hs₁]
    rw [not_or, not_and] at hx
    refine removeProject_data hdb hmem hx.1 ?_
    intro t ht htx
    exact hx.2 ⟨q, hmem, rfl, rfl⟩ ⟨t, ht, htx⟩

/-- And it does change the data of their workspaces. -/
theorem deleteProject_strays {w p u : String} {s : TaskState} (hdb : WellFormed s.db)
    (hq : ∃ q ∈ s.db.projects, q.id = p ∧ q.workspaceId = w) {t : Task}
    (ht : HangsBelow s.db (fun t => t.projectId = p) t) :
    Ensures (apiExec pg) (fun r s' => Served t.workspaceId s.db r s'.db)
      ((fun _ => Reply.empty) <$> deleteProject p w u) s := by
  refine ensures_map.mpr fun ω₁ => ?_
  obtain ⟨q, hmem, rfl, rfl⟩ := hq
  cases h : findProject s.db q.id q.workspaceId with
  | none =>
      have hnot := List.find?_eq_none.mp h q hmem
      simp at hnot
  | some q' =>
      obtain ⟨hmem', hid, -⟩ := findProject_some h
      rw [← hdb.projectIds.eq_of_key hmem hmem' hid.symm] at h
      show Ensures (apiExec pg) _ (orNotFound _ (findProject s.db q.id q.workspaceId) >>= _) _
      rw [h]
      intro ω₂
      exact cascade_served hdb ht
        ⟨not_false, fun _ => ⟨trivial, fun _ => ⟨not_false, fun _ => trivial⟩⟩⟩ rfl

/-- `DELETE /workspaces/:workspaceId` reaches what hangs below the tasks of the workspace
    and of its projects. -/
theorem deleteWorkspace_confined {w u : String} {s : TaskState} (hdb : WellFormed s.db)
    (hc : CachePlaced s) :
    Confined pg
      (fun x => x = w ∨ ∃ t, HangsBelow s.db (ofWorkspace s.db w) t ∧ t.workspaceId = x)
      ((fun _ => Reply.empty) <$> deleteWorkspace w u) s := by
  refine confined_map (ensures_findWorkspaceById hc ?_ ?_)
  · exact fun e s' hs' _ => servesOnly_error fun x _ => by rw [hs']
  · intro ws s₁ hs₁ hid ω
    refine served_tail ⟨not_false, fun _ =>
      ⟨not_false, fun _ => ⟨trivial, fun _ => trivial⟩⟩⟩
      (fun _ _ _ _ _ hx => absurd hx not_false) ?_
    intro x hx
    show dataOf (removeWorkspace s₁.db ws.row.id) x = _
    rw [hs₁, hid]
    rw [not_or] at hx
    refine removeWorkspace_data hdb hx.1 ?_
    intro t ht htx
    exact hx.2 ⟨t, ht, htx⟩

theorem deleteWorkspace_strays {w u : String} {s : TaskState} (hdb : WellFormed s.db)
    (hc : CachePlaced s) (hw : ∃ ws ∈ s.db.workspaces, ws.id = w) {t : Task}
    (ht : HangsBelow s.db (ofWorkspace s.db w) t) :
    Ensures (apiExec pg) (fun r s' => Served t.workspaceId s.db r s'.db)
      ((fun _ => Reply.empty) <$> deleteWorkspace w u) s := by
  refine ensures_map.mpr (ensures_findWorkspaceById hc ?_ ?_)
  · intro e s' hs' hnone
    obtain ⟨ws, hmem, hid⟩ := hw
    exact absurd hid (hnone ws hmem)
  · intro ws s₁ hs₁ hid ω
    refine cascade_served hdb ht
      ⟨not_false, fun _ => ⟨not_false, fun _ => ⟨trivial, fun _ => trivial⟩⟩⟩ ?_
    show tasksOf (removeWorkspace s₁.db ws.row.id) _ = _
    rw [hs₁, hid]
    rfl

/-! ## Hierarchies -/

/-- The tasks whose rows a hierarchy query returns. -/
def Reaches (db : Database) (taskId workspaceId : String) (x : Task) :
    SubtaskQuery → Prop
  | .tree => ∃ t ∈ db.tasks, t.deletedAt = none ∧ t.id = taskId ∧
      t.workspaceId = workspaceId ∧ ReflTransGen (LiveChild db) t x
  | .descendants => ∃ t ∈ db.tasks, t.deletedAt = none ∧ t.id = taskId ∧
      t.workspaceId = workspaceId ∧ ∃ b, LiveChild db t b ∧ b.workspaceId = workspaceId ∧
        ReflTransGen (LiveChild db) b x
  | .ancestors => ∃ t ∈ db.tasks, t.deletedAt = none ∧ t.id = taskId ∧
      t.workspaceId = workspaceId ∧ ∃ p ∈ db.tasks, p.deletedAt = none ∧
        t.parentTaskId = some p.id ∧ ReflTransGen (LiveChild db) p x

theorem stored_of_chain {a x : Task} (ha : a ∈ db.tasks)
    (h : ReflTransGen (LiveChild db) a x) : x ∈ db.tasks := by
  rcases ReflTransGen.cases_tail h with rfl | ⟨y, -, hlink⟩
  · exact ha
  · exact hlink.stored

/-- The row of a task is data of its workspace only. -/
theorem rowHolds_selectColumns (hids : Unique Task.id db.tasks) {t : Task}
    (ht : t ∈ db.tasks) {x : String} : rowHolds db x (selectColumns t) ↔ t.workspaceId = x := by
  constructor
  · rintro ⟨r, hr, hid, rfl⟩
    rw [hids.eq_of_key hr ht hid]
  · intro h
    exact ⟨t, ht, rfl, h⟩

/-- Without the task there is no hierarchy. -/
theorem hierarchy_missing {query : SubtaskQuery} {taskId workspaceId : String}
    (order : RowOrder) (h : ¬ ∃ t ∈ db.tasks, t.deletedAt = none ∧ t.id = taskId ∧
      t.workspaceId = workspaceId) :
    hierarchy db order query taskId workspaceId
      = .error (.notFound "Task not found in this workspace") := by
  have hcheck : ¬ taskCheck db taskId workspaceId = true := by
    intro htrue
    obtain ⟨t, ht, hc⟩ := List.any_eq_true.mp htrue
    rw [Bool.and_eq_true, Bool.and_eq_true, decide_eq_true_eq, decide_eq_true_eq,
      Option.isNone_iff_eq_none] at hc
    exact h ⟨t, ht, hc.2, hc.1⟩
  cases query with
  | tree =>
      simp only [hierarchy, getTaskTree, hierarchyQuery, if_neg hcheck]
      rfl
  | descendants =>
      simp only [hierarchy, getDescendants, hierarchyQuery, if_neg hcheck]
      rfl
  | ancestors =>
      simp only [hierarchy, getAncestors, hierarchyQuery, if_neg hcheck]
      rfl

/-- Rows of certain tasks are data of the workspaces of these tasks. -/
theorem rowsHold_iff (hids : Unique Task.id db.tasks) {C : Task → Prop}
    (hC : ∀ x, C x → x ∈ db.tasks) {rows : List TreeRow}
    (hrows : ∀ row, row ∈ rows ↔ ∃ x, C x ∧ row = selectColumns x) {X : String} :
    (∃ row ∈ rows, rowHolds db X row) ↔ ∃ x, C x ∧ x.workspaceId = X := by
  constructor
  · rintro ⟨row, hrow, hholds⟩
    obtain ⟨x, hx, rfl⟩ := (hrows row).mp hrow
    exact ⟨x, hx, (rowHolds_selectColumns hids (hC x hx)).mp hholds⟩
  · rintro ⟨x, hx, hX⟩
    exact ⟨selectColumns x, (hrows _).mpr ⟨x, hx, rfl⟩,
      (rowHolds_selectColumns hids (hC x hx)).mpr hX⟩

/-- For a live task of the workspace, a hierarchy query returns the rows of the tasks that
    it reaches. -/
theorem hierarchy_rows (hdb : WellFormed db) (order : RowOrder) (query : SubtaskQuery)
    {t : Task} (ht : t ∈ db.tasks) (hl : t.deletedAt = none) :
    ∃ h, hierarchy db order query t.id t.workspaceId = .ok h ∧
      ∀ X, (Reply.hierarchy h).Holds db X ↔
        ∃ x, Reaches db t.id t.workspaceId x query ∧ x.workspaceId = X := by
  have hids := hdb.taskIds
  -- the queries name the task by its id, which is one row's only
  have hsame : ∀ r ∈ db.tasks, r.id = t.id → r = t :=
    fun r hr hid => hids.eq_of_key hr ht hid
  have hup := le_refl db.tasks.length
  cases query with
  | tree =>
      obtain ⟨node, hnode, hrows⟩ :=
        getTaskTree_rows hids hdb.parents hdb.named ht hl order hup
      refine ⟨.tree (some node), ?_, ?_⟩
      · simp only [hierarchy, hnode]
        rfl
      · intro X
        have hreach : ∀ x, Reaches db t.id t.workspaceId x .tree ↔
            ReflTransGen (LiveChild db) t x := by
          intro x
          constructor
          · rintro ⟨r, hr, -, hid, -, hchain⟩
            exact hsame r hr hid ▸ hchain
          · exact fun hchain => ⟨t, ht, hl, rfl, rfl, hchain⟩
        simp only [hreach]
        exact rowsHold_iff hids (fun x hx => stored_of_chain ht hx) hrows
  | descendants =>
      obtain ⟨rows, hanswer, hrows⟩ := getDescendants_rows hids hdb.parents ht hl order hup
      refine ⟨.rows rows, ?_, ?_⟩
      · simp only [hierarchy, hanswer]
        rfl
      · intro X
        refine rowsHold_iff hids ?_ ?_
        · rintro x ⟨r, -, -, -, -, b, hb, -, hchain⟩
          exact stored_of_chain hb.stored hchain
        · intro row
          rw [hrows]
          constructor
          · rintro ⟨b, x, hb, hw, hchain, rfl⟩
            exact ⟨x, ⟨t, ht, hl, rfl, rfl, b, hb, hw, hchain⟩, rfl⟩
          · rintro ⟨x, ⟨r, hr, -, hid, -, b, hb, hw, hchain⟩, rfl⟩
            exact ⟨b, x, hsame r hr hid ▸ hb, hw, hchain, rfl⟩
  | ancestors =>
      obtain ⟨rows, hanswer, hrows⟩ := getAncestors_rows hids hdb.parents ht hl order hup
      refine ⟨.rows rows, ?_, ?_⟩
      · simp only [hierarchy, hanswer]
        rfl
      · intro X
        refine rowsHold_iff hids ?_ ?_
        · rintro x ⟨r, -, -, -, -, p, hp, -, -, hchain⟩
          exact stored_of_chain hp hchain
        · intro row
          rw [hrows]
          constructor
          · rintro ⟨p, x, hp, hplive, hparent, hchain, rfl⟩
            exact ⟨x, ⟨t, ht, hl, rfl, rfl, p, hp, hplive, hparent, hchain⟩, rfl⟩
          · rintro ⟨x, ⟨r, hr, -, hid, -, p, hp, hplive, hparent, hchain⟩, rfl⟩
            exact ⟨p, x, hp, hplive, hsame r hr hid ▸ hparent, hchain, rfl⟩

/-- Only for such a task is anything reached. -/
theorem Reaches.live {taskId workspaceId : String} {x : Task} {query : SubtaskQuery}
    (h : Reaches db taskId workspaceId x query) :
    ∃ t ∈ db.tasks, t.deletedAt = none ∧ t.id = taskId ∧ t.workspaceId = workspaceId := by
  cases query with
  | tree =>
      obtain ⟨t, ht, hl, hid, hw, -⟩ := h
      exact ⟨t, ht, hl, hid, hw⟩
  | descendants =>
      obtain ⟨t, ht, hl, hid, hw, -⟩ := h
      exact ⟨t, ht, hl, hid, hw⟩
  | ancestors =>
      obtain ⟨t, ht, hl, hid, hw, -⟩ := h
      exact ⟨t, ht, hl, hid, hw⟩

theorem Reaches.stored {taskId workspaceId : String} {x : Task} {query : SubtaskQuery}
    (h : Reaches db taskId workspaceId x query) : x ∈ db.tasks := by
  cases query with
  | tree =>
      obtain ⟨t, ht, -, -, -, hchain⟩ := h
      exact stored_of_chain ht hchain
  | descendants =>
      obtain ⟨t, -, -, -, -, b, hb, -, hchain⟩ := h
      exact stored_of_chain hb.stored hchain
  | ancestors =>
      obtain ⟨t, -, -, -, -, p, hp, -, -, hchain⟩ := h
      exact stored_of_chain hp hchain

/-- What a hierarchy query ends in. -/
theorem subtasks_ends {s : TaskState} (hdb : WellFormed s.db) (query : SubtaskQuery)
    (w t : Segment) :
    Ensures (apiExec pg) (fun r s' => s'.db = s.db ∧
      ∀ X, (∃ reply, r = .ok reply ∧ reply.Holds s.db X) ↔
        ∃ x, Reaches s.db t.text w.text x query ∧ x.workspaceId = X)
      (Route.handler.subtaskHandler query w t) s := by
  intro ω
  show Ensures (apiExec pg) _ (Reply.hierarchy <$> orThrow (hierarchy s.db pg.order query
    t.text w.text)) (s.wait ω)
  by_cases hlive : ∃ r ∈ s.db.tasks, r.deletedAt = none ∧ r.id = t.text ∧
      r.workspaceId = w.text
  · obtain ⟨r, hr, hl, hid, hw⟩ := hlive
    obtain ⟨h, hanswer, hholds⟩ := hierarchy_rows hdb pg.order query hr hl
    rw [hid, hw] at hanswer hholds
    rw [hanswer]
    refine ⟨rfl, ?_⟩
    intro X
    rw [← hholds]
    constructor
    · rintro ⟨reply, hok, hreply⟩
      cases hok
      exact hreply
    · exact fun hreply => ⟨_, rfl, hreply⟩
  · rw [hierarchy_missing pg.order hlive]
    refine ⟨rfl, ?_⟩
    intro X
    constructor
    · rintro ⟨reply, hok, -⟩
      cases hok
    · rintro ⟨x, hreach, -⟩
      exact absurd hreach.live hlive

/-- A hierarchy query serves the workspaces of the tasks that it reaches. -/
theorem subtasks_confined {s : TaskState} (hdb : WellFormed s.db) (query : SubtaskQuery)
    (w t : Segment) :
    Confined pg (fun X => ∃ x, Reaches s.db t.text w.text x query ∧ x.workspaceId = X)
      (Route.handler.subtaskHandler query w t) s := by
  refine (subtasks_ends hdb query w t).mono ?_
  rintro r s' ⟨hs', hiff⟩ X - (hreply | hne)
  · exact (hiff X).mp hreply
  · rw [hs'] at hne
    exact absurd rfl hne

theorem subtasks_strays {s : TaskState} (hdb : WellFormed s.db) (query : SubtaskQuery)
    (w t : Segment) {X : String}
    (h : ∃ x, Reaches s.db t.text w.text x query ∧ x.workspaceId = X) :
    Ensures (apiExec pg) (fun r s' => Served X s.db r s'.db)
      (Route.handler.subtaskHandler query w t) s :=
  (subtasks_ends hdb query w t).mono fun _ _ hr => Or.inl ((hr.2 X).mpr h)

end Handlers

end PlatformApi
