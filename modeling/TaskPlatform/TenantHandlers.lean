import TaskPlatform.TenantData

/-! # What the handlers return and change

    Run alone from a well-formed database and a cache that holds under each key what
    the services put there, almost every handler returns and changes data of the
    workspace in its path only (`Confined`).  The exceptions are the hierarchy
    queries, the two deletions with a cascade, and the workspace by slug; for these
    the file says what they reach. -/

namespace PlatformApi

open AsyncProgram Interleaving PlatformEntities PlatformTasks RowTable RecursiveQuery
  Relation

/-! ## Replies -/

/-- A cached value holds data of the workspace. -/
def valueHolds (x : String) : CacheValue → Prop
  | .task t => t.row.workspaceId = x
  | .tasks page => ∃ item ∈ page.items, item.row.workspaceId = x
  | .workspace w => w.row.id = x
  | .projects l => ∃ p ∈ l, p.workspaceId = x

/-- A row of a hierarchy is that of a task of the workspace. -/
def rowHolds (db : Database) (x : String) (row : TreeRow) : Prop :=
  ∃ t ∈ db.tasks, t.id = row.id ∧ t.workspaceId = x

/-- A comment is on a task of the workspace. -/
def commentHolds (db : Database) (x : String) (c : Comment) : Prop :=
  ∃ t ∈ db.tasks, t.id = c.taskId ∧ t.workspaceId = x

/-- A reply holds data of the workspace `x`. -/
def Reply.Holds (db : Database) (x : String) : Reply → Prop
  | .task (.created t) => t.workspaceId = x
  | .task (.listed v) => valueHolds x v
  | .task (.found t) => t.row.workspaceId = x
  | .task (.updated e) => e.row.workspaceId = x
  | .task .deleted => False
  | .presigned _ => False
  | .hierarchy (.tree none) => False
  | .hierarchy (.tree (some node)) => ∃ row ∈ node.rows, rowHolds db x row
  | .hierarchy (.rows rows) => ∃ row ∈ rows, rowHolds db x row
  | .project p => p.workspaceId = x
  | .projects l => ∃ p ∈ l, p.workspaceId = x
  | .comment c => commentHolds db x c
  | .comments l => ∃ c ∈ l, commentHolds db x c.row
  | .summary c => (∃ p ∈ c.projects, p.workspaceId = x) ∨ ∃ t ∈ c.tasks, t.workspaceId = x
  | .workspace w => w.row.id = x
  | .member m => m.workspaceId = x
  | .members l => ∃ m ∈ l, m.row.workspaceId = x
  | .empty => False

/-- The call returned data of the workspace, or changed it. -/
def Served (x : String) (db : Database) (out : Except HttpError Reply) (db' : Database) :
    Prop :=
  (∃ reply, out = .ok reply ∧ reply.Holds db x) ∨ dataOf db' x ≠ dataOf db x

/-- Existing workspaces are served only if `P` holds of them. -/
def ServesOnly (P : String → Prop) (db : Database) (out : Except HttpError Reply)
    (s' : TaskState) : Prop :=
  ∀ x, (∃ w ∈ db.workspaces, w.id = x) → Served x db out s'.db → P x

/-- Every way a handler can end serves `P` only. -/
def Confined (pg : Postgres) (P : String → Prop) (p : ApiProg Reply) (s : TaskState) :
    Prop :=
  Ensures (apiExec pg) (ServesOnly P s.db) p s

/-- What the cache holds under the keys of the services is what they put there. -/
structure CachePlaced (s : TaskState) : Prop where
  task : ∀ id t, s.cache (getTaskCacheKey id) = some (.task t) →
    t.row.id = id ∧ ∀ r ∈ s.db.tasks, r.id = id → SameIdentity r t.row
  list : ∀ w ∈ s.db.workspaces, ∀ p q v, s.cache (getListCacheKey w.id p q) = some v →
    ∃ page, v = .tasks page ∧ ∀ item ∈ page.items, item.row.workspaceId = w.id
  projects : ∀ w ∈ s.db.workspaces, ∀ l,
    s.cache (getProjectsCacheKey w.id) = some (.projects l) →
      ∀ p ∈ l, p.workspaceId = w.id
  byId : ∀ id w, s.cache (getCacheKey id false) = some (.workspace w) → w.row.id = id
  bySlug : ∀ slug w, s.cache (getCacheKey slug true) = some (.workspace w) →
    ∀ w' ∈ s.db.workspaces, w'.id = w.row.id → w'.slug = slug

/-- Waiting only takes entries out of the cache. -/
theorem CachePlaced.wait {s : TaskState} (h : CachePlaced s) (ω : Choice) :
    CachePlaced (s.wait ω) where
  task id t ht := h.task id t (wait_cache ht)
  list w hw p q v hv := h.list w hw p q v (wait_cache hv)
  projects w hw l hl := h.projects w hw l (wait_cache hl)
  byId id w hw := h.byId id w (wait_cache hw)
  bySlug slug w hw := h.bySlug slug w (wait_cache hw)

section Handlers

variable {pg : Postgres} {db : Database} {P : String → Prop}

/-- A call that ends in an exception and has changed nothing. -/
theorem servesOnly_error {e : HttpError} {s' : TaskState}
    (h : ∀ x, ¬ P x → dataOf s'.db x = dataOf db x) :
    ServesOnly P db (.error e) s' := by
  rintro x - (⟨reply, hout, -⟩ | hne)
  · cases hout
  · by_contra hx
    exact hne (h x hx)

/-- A call that returns. -/
theorem servesOnly_ok {reply : Reply} {s' : TaskState}
    (hreply : ∀ x, (∃ w ∈ db.workspaces, w.id = x) → reply.Holds db x → P x)
    (h : ∀ x, ¬ P x → dataOf s'.db x = dataOf db x) :
    ServesOnly P db (.ok reply) s' := by
  rintro x hex (⟨reply', hout, hholds⟩ | hne)
  · cases hout
    exact hreply x hex hholds
  · by_contra hx
    exact hne (h x hx)

/-- A call that has done its work: what is left to do is quiet. -/
theorem confined_tail {p : ApiProg Reply} {s : TaskState} (hq : OnlyIssues Quiet p)
    (hr : Returns (fun reply : Reply =>
      ∀ x, (∃ w ∈ db.workspaces, w.id = x) → reply.Holds db x → P x) p)
    (h : ∀ x, ¬ P x → dataOf s.db x = dataOf db x) :
    Ensures (apiExec pg) (ServesOnly P db) p s := by
  have hkeep : ∀ ω op (s' : TaskState), Quiet op →
    (∀ x, ¬ P x → dataOf s'.db x = dataOf db x) →
      ∀ x, ¬ P x → dataOf (apiExec pg ω op s').1.db x = dataOf db x := by
    intro ω op s' hop hI x hx
    rw [quiet_data pg ω hop s' x]
    exact hI x hx
  refine (hq.ensures hkeep hr h).mono ?_
  rintro (e | reply) s' ⟨hdata, hreply⟩
  · exact servesOnly_error hdata
  · exact servesOnly_ok (hreply reply rfl) hdata

/-! ## Programs of the task service -/

theorem ensures_lift {α : Type} {Q : Except HttpError α → TaskState → Prop}
    {p : TaskProg α} {s : TaskState} :
    Ensures (apiExec pg) Q (liftTask p) s ↔ Ensures (exec pg.text) Q p s := by
  induction p generalizing s with
  | done a => exact Iff.rfl
  | fail e => exact Iff.rfl
  | await op k ih => exact forall_congr' fun ω => ih _

theorem onlyIssues_lift {α : Type} {p : TaskProg α}
    (h : OnlyIssues PlatformTasks.Quiet p) : OnlyIssues Quiet (liftTask p) := by
  refine onlyIssues_liftTask (h.mono fun op hquiet => ?_)
  intro hop
  cases op with
  | insert n => exact hquiet
  | save e => exact hquiet
  | softRemove t => exact hquiet
  | _ => exact hop

theorem onlyIssues_map {α β : Type} {f : α → β} {p : ApiProg α} (h : OnlyIssues Quiet p) :
    OnlyIssues Quiet (f <$> p) :=
  h.bind fun _ => trivial

/-- The end of a task call, in terms of the task service. -/
def TaskEnd (workspaceId : String) (db : Database) (out : Except HttpError TaskReply)
    (s' : TaskState) : Prop :=
  Elsewhere workspaceId db s'.db ∧
    ∀ reply, out = .ok reply → ∀ x, (Reply.task reply).Holds db x → x = workspaceId

theorem confined_task {w : String} {p : TaskProg TaskReply} {s : TaskState}
    (h : Ensures (exec pg.text) (TaskEnd w s.db) p s) :
    Confined pg (fun x => x = w) (Reply.task <$> liftTask p) s := by
  unfold Confined
  rw [ensures_map, ensures_lift]
  refine h.mono ?_
  rintro (e | reply) s' ⟨hdata, hreply⟩
  · exact servesOnly_error hdata
  · exact servesOnly_ok (fun x _ => hreply reply rfl x) hdata

/-- The rest of a task call is quiet. -/
theorem taskEnd_tail {w : String} {p : TaskProg TaskReply} {s : TaskState}
    (hq : OnlyIssues PlatformTasks.Quiet p)
    (hr : Returns (fun reply => ∀ x, (Reply.task reply).Holds db x → x = w) p)
    (h : Elsewhere w db s.db) : Ensures (exec pg.text) (TaskEnd w db) p s := by
  rw [← ensures_lift]
  have hkeep : ∀ ω op (s' : TaskState), Quiet op → Elsewhere w db s'.db →
      Elsewhere w db (apiExec pg ω op s').1.db := by
    intro ω op s' hop hI x hx
    rw [quiet_data pg ω hop s' x]
    exact hI x hx
  have hreturns : Returns (fun reply => ∀ x, (Reply.task reply).Holds db x → x = w)
      (liftTask p) := by
    clear hq
    induction p with
    | done a => exact hr
    | fail e => trivial
    | await op k ih => exact fun r => ih r (hr r)
  exact ((onlyIssues_lift hq).ensures hkeep hreturns h).mono fun out s' h => ⟨h.1, h.2⟩

/-- `findById` of a task: what comes back is of the workspace, and of the identity of the
    stored row. -/
theorem ensures_findTask {id w : String} {f : LoadedTask → TaskProg TaskReply}
    {Q : Except HttpError TaskReply → TaskState → Prop} {s : TaskState}
    (hids : Unique Task.id s.db.tasks) (hc : CachePlaced s)
    (hf : ∀ (t : LoadedTask) (s' : TaskState), s'.db = s.db → t.row.id = id →
      t.row.workspaceId = w → (∀ r ∈ s.db.tasks, r.id = id → SameIdentity r t.row) →
      Ensures (exec pg.text) Q (f t) s')
    (herr : ∀ (e : HttpError) (s' : TaskState), s'.db = s.db → Q (.error e) s') :
    Ensures (exec pg.text) Q (PlatformTasks.findById id w >>= f) s := by
  have hdb : ∀ s₁ : TaskState, s₁.db = s.db →
      Ensures (exec pg.text) Q (findInDatabase id w >>= f) s₁ := by
    intro s₁ hs₁
    simp only [findInDatabase, Prog.perform_bind, Prog.await_bind]
    intro ω₁
    cases ht : (exec pg.text ω₁ (.findOne id w) s₁).2 with
    | none => exact herr _ _ hs₁
    | some t =>
        have hfound : findOneTask s.db id w = some t := hs₁ ▸ ht
        obtain ⟨-, hmem, hid, hw, -⟩ := findOneTask_some hfound
        intro ω₂
        refine hf t _ hs₁ hid hw ?_
        intro r hr hrid
        rw [hids.eq_of_key hr hmem (hrid.trans hid.symm)]
        exact SameIdentity.refl _
  simp only [PlatformTasks.findById, Prog.perform_bind, Prog.await_bind]
  intro ω
  cases hv : (exec pg.text ω (.cacheGet (getTaskCacheKey id)) s).2 with
  | none => exact hdb _ rfl
  | some v =>
      cases v with
      | tasks page => exact hdb _ rfl
      | workspace ws => exact hdb _ rfl
      | projects l => exact hdb _ rfl
      | task t =>
          by_cases hw : t.row.workspaceId = w
          · simp only [if_pos hw, Prog.done_bind]
            obtain ⟨hid, hsame⟩ := hc.task id t (wait_cache hv)
            exact hf t _ rfl hid hw hsame
          · simp only [if_neg hw]
            exact hdb _ rfl

theorem findById_ends {id w : String} {s : TaskState} (hids : Unique Task.id s.db.tasks)
    (hc : CachePlaced s) :
    Ensures (exec pg.text) (TaskEnd w s.db) (TaskCall.findById id w).prog s := by
  refine ensures_findTask hids hc ?_ ?_
  · intro t s' hs' _ hw _
    exact taskEnd_tail trivial (fun x hx => hx.symm.trans hw) fun x _ => by rw [hs']
  · intro e s' hs'
    exact ⟨fun x _ => by rw [hs'], fun reply h => by cases h⟩

theorem getTasks_ends {w p : String} {query : QueryTaskDto} {s : TaskState}
    (hc : CachePlaced s) (hw : ∃ ws ∈ s.db.workspaces, ws.id = w) :
    Ensures (exec pg.text) (TaskEnd w s.db) (TaskCall.getTasks w p query).prog s := by
  intro ω₁
  cases hv : (exec pg.text ω₁ (.cacheGet (getListCacheKey w p query)) s).2 with
  | some v =>
      obtain ⟨ws, hws, rfl⟩ := hw
      obtain ⟨page, rfl, hitems⟩ := hc.list ws hws p query v (wait_cache hv)
      refine taskEnd_tail trivial ?_ fun x _ => rfl
      rintro x ⟨item, hitem, rfl⟩
      exact hitems item hitem
  | none =>
      intro ω₂ ω₃
      refine taskEnd_tail trivial ?_ fun x _ => rfl
      rintro x ⟨item, hitem, rfl⟩
      exact listTasks_workspace pg.text hitem

theorem createTask_ends {w p u : String} {dto : CreateTaskDto} {s : TaskState} :
    Ensures (exec pg.text) (TaskEnd w s.db) (TaskCall.createTask w p u dto).prog s := by
  intro ω
  rcases exec_insert_cases pg.text ω _ s with ⟨e, h⟩ | ⟨db, row, hins, h⟩
  · rw [h]
    exact taskEnd_tail trivial trivial fun x _ => rfl
  · obtain ⟨-, -, rfl, hrow, -⟩ := insertTask_ok hins
    have hw : row.workspaceId = w := by rw [hrow]; rfl
    rw [h]
    refine taskEnd_tail ?_ ?_ ?_
    · exact ⟨trivial, fun _ => ⟨trivial, fun _ => ⟨trivial, fun _ => ⟨trivial, fun _ =>
        (notifyAssignee_quiet dto).bind fun _ => trivial⟩⟩⟩⟩
    · have hrest : Returns (fun reply => ∀ x, (Reply.task reply).Holds s.db x → x = w)
          (notifyAssignee dto >>= fun _ => .done (.created row)) :=
        Returns.bind fun _ x hx => hx.symm.trans hw
      exact fun _ _ _ _ => hrest
    · rw [← hw]
      exact elsewhere_append_task s.db row

/-- What a save does to the data of other workspaces, and what it hands back. -/
theorem exec_save_elsewhere {w : String} {e : TaskEntity} {s : TaskState} (ω : Choice)
    (hids : Unique Task.id s.db.tasks) (hw : e.row.workspaceId = w)
    (hsame : ∀ r ∈ s.db.tasks, r.id = e.row.id → SameIdentity r e.row) :
    Elsewhere w s.db (exec pg.text ω (.save e) s).1.db ∧
      ∀ saved, (exec pg.text ω (.save e) s).2 = .ok saved → saved.row.workspaceId = w := by
  cases h : saveTask s.db (s.now + ω.elapsed) e with
  | error err =>
      simp only [exec, h]
      refine ⟨fun x _ => rfl, ?_⟩
      intro saved hsaved
      cases hsaved
  | ok out =>
      obtain ⟨db', saved⟩ := out
      simp only [exec, h]
      refine ⟨?_, ?_⟩
      · cases saveTask_ok h with
        | unchanged row stored wanted => exact fun x _ => rfl
        | inserted new wanted gone keys =>
            obtain ⟨hne, -, -⟩ := toRow_some wanted
            rw [← hw, ← hne.workspaceId]
            exact elsewhere_append_task s.db new
        | updated old new wanted stored writes keys =>
            obtain ⟨hne, -, -⟩ := toRow_some wanted
            obtain ⟨hmem, hid⟩ := lookup_mem stored
            have hold := hsame old hmem (hid.trans hne.id)
            have hrow := updateRow_identity (s.now + ω.elapsed) old new
            have hstored : lookup Task.id (updateRow (s.now + ω.elapsed) old new).id
                s.db.tasks = some old := stored
            rw [← hw, ← hne.workspaceId, ← hrow.workspaceId]
            exact elsewhere_replace_task hids hstored (hrow.trans (hne.trans hold.symm))
      · intro saved' hsaved
        cases hsaved
        rw [(saveTask_returns h).workspaceId, hw]

theorem updateTask_ends {id w u : String} {dto : UpdateTaskDto} {s : TaskState}
    (hids : Unique Task.id s.db.tasks) (hc : CachePlaced s) :
    Ensures (exec pg.text) (TaskEnd w s.db) (TaskCall.updateTask id w u dto).prog s := by
  have hfail : ∀ (e : HttpError) (s' : TaskState), s'.db = s.db →
      TaskEnd w s.db (.error e) s' :=
    fun e s' hs' => ⟨fun x _ => by rw [hs'], fun reply h => by cases h⟩
  refine ensures_findTask hids hc ?_ hfail
  intro t s₁ hs₁ hid hw hsame
  unfold updateLoaded
  by_cases hv : versionMismatch dto.version t.row.version = true
  · rw [if_pos hv]
    exact hfail _ _ hs₁
  · rw [if_neg hv, ensures_bind]
    -- the clock aside, nothing happens before the save
    have htime : Ensures (exec pg.text) (fun _ s' => s'.db = s.db) (completionTime dto t)
        s₁ := by
      unfold completionTime
      by_cases hcomp : completes dto t = true
      · rw [if_pos hcomp]
        exact fun _ => hs₁
      · rw [if_neg hcomp]
        cases dto.status with
        | undefined => exact hs₁
        | null => exact hs₁
        | val st => cases st <;> exact hs₁
    refine htime.mono ?_
    rintro (e | c) s₂ hs₂
    · exact hfail _ _ hs₂
    · intro ω
      have hids₂ : Unique Task.id s₂.db.tasks := hs₂ ▸ hids
      have hsame₂ : ∀ r ∈ s₂.db.tasks, r.id = (applyDto t dto c).row.id →
          SameIdentity r (applyDto t dto c).row := by
        rw [hs₂]
        intro r hr hrid
        have hs := hsame r hr (hrid.trans hid)
        exact ⟨hs.id, hs.workspaceId, hs.projectId, hs.parentTaskId, hs.createdAt⟩
      have hsave : Elsewhere w s₂.db (exec pg.text ω (.save (applyDto t dto c)) s₂).1.db ∧
          ∀ saved, (exec pg.text ω (.save (applyDto t dto c)) s₂).2 = .ok saved →
            saved.row.workspaceId = w := exec_save_elsewhere ω hids₂ hw hsame₂
      obtain ⟨helse, hsaved⟩ := hsave
      rw [hs₂] at helse
      cases h : (exec pg.text ω (.save (applyDto t dto c)) s₂).2 with
      | error e => exact taskEnd_tail trivial trivial helse
      | ok saved =>
          refine taskEnd_tail (afterSave_quiet _ _ _ _ _ _) ?_ helse
          have hrest : Returns (fun reply => ∀ x, (Reply.task reply).Holds s.db x → x = w)
              (announceUpdate id w u saved (completes dto t)
                (assigneeChanges dto t) >>= fun _ =>
                  PlatformTasks.ask (.emit (.taskUpdated w saved)) >>= fun _ =>
                    .done (.updated saved)) :=
            Returns.bind fun _ _ x hx => hx.symm.trans (hsaved saved h)
          exact fun _ _ _ => hrest

theorem deleteTask_ends {id w u : String} {s : TaskState}
    (hids : Unique Task.id s.db.tasks) (hc : CachePlaced s) :
    Ensures (exec pg.text) (TaskEnd w s.db) (TaskCall.deleteTask id w u).prog s := by
  refine ensures_findTask hids hc ?_ ?_
  · intro t s₁ hs₁ hid hw hsame ω
    refine taskEnd_tail ?_ (fun _ _ _ _ _ _ x hx => absurd hx not_false) ?_
    · exact ⟨trivial, fun _ => ⟨trivial, fun _ => ⟨trivial, fun _ => ⟨trivial, fun _ =>
        ⟨trivial, fun _ => ⟨trivial, fun _ => trivial⟩⟩⟩⟩⟩⟩
    · show Elsewhere w s.db (softRemoveTask s₁.db _ t.row.id)
      rw [hs₁]
      rcases softRemoveTask_cases s.db (s₁.now + ω.elapsed) t.row.id with
        ⟨-, h⟩ | ⟨r, hr, h⟩
      · rw [h]
        exact fun x _ => rfl
      · rw [h]
        obtain ⟨hmem, hrid⟩ := lookup_mem hr
        have hold := hsame r hmem (hrid.trans hid)
        have hsame' := markDeleted_identity (s₁.now + ω.elapsed) r
        have hstored : lookup Task.id (markDeleted (s₁.now + ω.elapsed) r).id s.db.tasks
            = some r := hrid ▸ hr
        rw [← hw, ← hold.workspaceId, ← hsame'.workspaceId]
        exact elsewhere_replace_task hids hstored hsame'
  · intro e s' hs'
    exact ⟨fun x _ => by rw [hs'], fun reply h => by cases h⟩

end Handlers

end PlatformApi
