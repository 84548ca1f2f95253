import TaskPlatform.DelimitedText
import TaskPlatform.TaskRuns

/-! # Tenants among the task calls

    Tasks are cached without their tenant in the key, and lists under keys with free
    text in them.  What keeps the tenants apart is what the entries hold: a list entry
    is a page of one workspace, and its key begins with the id of this workspace
    (`PagesPlaced`).  Workspace ids have no colon, so the key gives the workspace
    back. -/

namespace PlatformTasks

open AsyncProgram Interleaving PlatformEntities RowTable GlobPattern

/-! ## Keys give the workspace back -/

/-- The ids of workspaces are uuids. -/
def NoColon (id : String) : Prop := ':' ∉ id.toList

theorem listKey_workspace {w w' p p' : String} {q q' : QueryTaskDto} (hw : NoColon w)
    (hw' : NoColon w') (h : getListCacheKey w p q = getListCacheKey w' p' q') : w = w' := by
  have hsplit : ∀ (x y : String) (z : QueryTaskDto), ∃ rest : List Char,
      (getListCacheKey x y z).toList = "workspace:".toList ++ (x.toList ++ ':' :: rest) := by
    intro x y z
    obtain ⟨rest, hrest⟩ := listKey_split x y z
    refine ⟨"project:".toList ++ (y.toList ++ (":tasks:".toList ++ rest.toList)), ?_⟩
    rw [hrest]
    simp only [String.toList_append, List.append_assoc]
    rfl
  obtain ⟨rest, hrest⟩ := hsplit w p q
  obtain ⟨rest', hrest'⟩ := hsplit w' p' q'
  rw [h, hrest'] at hrest
  exact String.toList_injective (DelimitedText.before_first hw' hw
    (List.append_cancel_left hrest)).1.symm

/-! ## Pages stay with their workspace -/

/-- The items of a page are of one workspace, whose id the key begins with. -/
def PagePlaced (db : Database) (key : String) (page : TaskPage) : Prop :=
  ∀ item ∈ page.items, (∃ p q, key = getListCacheKey item.row.workspaceId p q) ∧
    ∃ ws ∈ db.workspaces, ws.id = item.row.workspaceId

/-- Every cached page lies under a key of the workspace of its tasks. -/
def PagesPlaced (s : TaskState) : Prop :=
  ∀ key page, s.cache key = some (.tasks page) → PagePlaced s.db key page

/-- What a call sees to besides its duty: a page is cached under a key of its
    workspace. -/
def PageDuty (s : TaskState) : TaskProg TaskReply → Prop
  | .await (.cacheSet key (.tasks page) _) _ => PagePlaced s.db key page
  | _ => True

section Tenancy

variable (pg : PostgresText)

/-- The bargain with the pages in it. -/
def tenancy : Discipline (exec pg) HttpError TaskReply where
  inv s := Consistent s.db s.cache ∧ PagesPlaced s
  rely s s' := RowsStay s.db s'.db ∧ s'.db.workspaces = s.db.workspaces
  refl s := ⟨RowsStay.refl s.db, rfl⟩
  trans _ _ _ h h' := ⟨h.1.trans h'.1, h'.2.trans h.2⟩
  granted _ _ := True
  owes s p := Duty s p ∧ PageDuty s p
  keep := by
    intro ω op k s hinv howes _
    obtain ⟨hcons, hstay⟩ := (taskService pg).keep ω op k s hinv.1 howes.1 trivial
    obtain ⟨-, hws, -⟩ := exec_static pg ω op s
    refine ⟨⟨hcons, ?_⟩, hstay, hws⟩
    intro key page hpage
    unfold PagePlaced
    rw [hws]
    rcases exec_cache pg hpage with hold | ⟨ttl, rfl⟩
    · exact hinv.2 key page hold
    · exact howes.2

/-- Operations that cache no page. -/
def CachesNoPage : TaskOp → Prop
  | .cacheSet _ (.tasks _) _ => False
  | _ => True

/-- A call that caches no page has no more to see to than before. -/
theorem follows_tenancy {p : TaskProg TaskReply} {s : TaskState}
    (h : Follows (taskService pg) p s) (hp : OnlyIssues CachesNoPage p) :
    Follows (tenancy pg) p s := by
  induction p generalizing s with
  | done a => exact fun s' hi hr => ⟨h s' hi.1 hr.1, trivial⟩
  | fail e => exact fun s' hi hr => ⟨h s' hi.1 hr.1, trivial⟩
  | await op k ih =>
      intro s' hi hr
      obtain ⟨hduty, hnext⟩ := h s' hi.1 hr.1
      refine ⟨⟨hduty, ?_⟩, fun hg ω => ih _ (hnext hg ω) (hp.2 _)⟩
      cases op with
      | cacheSet key v ttl =>
          cases v with
          | tasks page => exact absurd hp.1 not_false
          | _ => trivial
      | _ => trivial

theorem cachesNoPage_of_quiet {α : Type} {p : TaskProg α} (h : OnlyIssues Quiet p) :
    OnlyIssues CachesNoPage p := by
  refine h.mono ?_
  intro op hop
  cases op with
  | cacheSet key v ttl => exact absurd hop not_false
  | _ => trivial

theorem findById_cachesNoPage (id w : String) : OnlyIssues CachesNoPage (findById id w) := by
  refine (findById_issues id w).mono ?_
  rintro op (_ | _ | _) <;> trivial

theorem updateLoaded_cachesNoPage (id w u : String) (dto : UpdateTaskDto) (t : LoadedTask) :
    OnlyIssues CachesNoPage (updateLoaded id w u dto t) := by
  unfold updateLoaded
  by_cases hv : versionMismatch dto.version t.row.version = true
  · rw [if_pos hv]
    trivial
  · rw [if_neg hv]
    refine (cachesNoPage_of_quiet (completionTime_quiet dto t)).bind fun c => ⟨trivial, ?_⟩
    rintro (e | saved)
    · trivial
    · exact cachesNoPage_of_quiet (afterSave_quiet _ _ _ _ _ _)

theorem getTasks_tenancy (w p : String) (q : QueryTaskDto) (s : TaskState) :
    Follows (tenancy pg) (getTasks w p q) s := by
  intro s₁ _ _
  refine ⟨⟨trivial, trivial⟩, fun _ ω₁ => ?_⟩
  cases (exec pg ω₁ (.cacheGet (getListCacheKey w p q)) s₁).2 with
  | some v => exact fun _ _ _ => ⟨trivial, trivial⟩
  | none =>
      intro s₂ hinv₂ _
      refine ⟨⟨trivial, trivial⟩, fun _ ω₂ => ?_⟩
      intro s₃ _ hr₃
      refine ⟨⟨trivial, ?_⟩, fun _ ω₃ => fun _ _ _ => ⟨trivial, trivial⟩⟩
      intro item hitem
      have hw := listTasks_workspace pg hitem
      obtain ⟨ws, hws, hid⟩ := (hinv₂.1.placed _ (mem_listTasks pg hitem).1).1
      have hstatic : s₃.db.workspaces = s₂.db.workspaces :=
        hr₃.2.trans (exec_static pg ω₂ _ s₂).2.1
      exact ⟨⟨p, q, by rw [hw]⟩, ws, by rw [hstatic]; exact hws, hid⟩

theorem call_tenancy (c : TaskCall) (s : TaskState) : Follows (tenancy pg) c.prog s := by
  cases c with
  | createTask w p u dto =>
      refine follows_tenancy pg (createTask_follows pg w p u dto s) ⟨trivial, ?_⟩
      rintro (e | row)
      · trivial
      · exact ⟨trivial, fun _ => ⟨trivial, fun _ => ⟨trivial, fun _ => ⟨trivial, fun _ =>
          (cachesNoPage_of_quiet (notifyAssignee_quiet dto)).bind fun _ => trivial⟩⟩⟩⟩
  | getTasks w p q => exact getTasks_tenancy pg w p q s
  | findById id w =>
      exact follows_tenancy pg (call_follows pg (.findById id w) s)
        ((findById_cachesNoPage id w).bind fun _ => trivial)
  | updateTask id w u dto =>
      exact follows_tenancy pg (updateTask_follows pg id w u dto s)
        ((findById_cachesNoPage id w).bind fun t => updateLoaded_cachesNoPage _ _ _ _ t)
  | deleteTask id w u =>
      exact follows_tenancy pg (deleteTask_follows pg id w u s)
        ((findById_cachesNoPage id w).bind fun _ => ⟨trivial, fun _ => ⟨trivial, fun _ =>
          ⟨trivial, fun _ => ⟨trivial, fun _ => ⟨trivial, fun _ => ⟨trivial, fun _ =>
            ⟨trivial, fun _ => trivial⟩⟩⟩⟩⟩⟩⟩)

theorem pool_tenancy {s : TaskState} (h : Consistent s.db s.cache) (hp : PagesPlaced s)
    (calls : List TaskCall) : Orderly (tenancy pg) (pool s calls) := by
  refine ⟨⟨h, hp⟩, ?_⟩
  intro p hp
  obtain ⟨c, -, rfl⟩ := List.mem_map.mp hp
  exact call_tenancy pg c s

/-! ## What a call under a workspace touches -/

/-- The tasks in what a call returns. -/
def TaskReply.tasks : TaskReply → List Task
  | .created t => [t]
  | .listed (.tasks page) => page.items.map ListedTask.row
  | .listed (.task t) => [t.row]
  | .listed _ => []
  | .found t => [t.row]
  | .updated e => [e.row]
  | .deleted => []

/-- An operation that writes at most tasks of the workspace. -/
def WritesWithin (w : String) (s : TaskState) : TaskOp → Prop
  | .insert n => n.workspaceId = w
  | .save e => e.row.workspaceId = w ∧ ∃ r ∈ s.db.tasks, SameIdentity r e.row
  | .softRemove t => t.row.workspaceId = w ∧ ∃ r ∈ s.db.tasks, SameIdentity r t.row
  | _ => True

/-- The rows of the other workspaces. -/
def tasksElsewhere (w : String) (db : Database) : List Task :=
  db.tasks.filter fun t => t.workspaceId ≠ w

/-- Overwriting a row of the workspace by one of the same identity. -/
theorem tasksElsewhere_replace {w : String} {db : Database} (hids : Unique Task.id db.tasks)
    {old row : Task} (hold : lookup Task.id row.id db.tasks = some old)
    (hsame : SameIdentity row old) (hw : old.workspaceId = w) :
    tasksElsewhere w { db with tasks := RowTable.replace Task.id row db.tasks }
      = tasksElsewhere w db := by
  obtain ⟨hmem, hid⟩ := lookup_mem hold
  have hrow : row.workspaceId = w := hsame.workspaceId.trans hw
  refine filter_replace (by simp [hrow]) ?_
  intro r hr hrid
  rw [hids.eq_of_key hr hmem (hrid.trans hid.symm)]
  simp [hw]

theorem WritesWithin.elsewhere {w : String} {s : TaskState} {op : TaskOp} (ω : Choice)
    (hids : Unique Task.id s.db.tasks) (h : WritesWithin w s op) :
    tasksElsewhere w (exec pg ω op s).1.db = tasksElsewhere w s.db := by
  have heffect := exec_effect pg ω op s
  generalize (exec pg ω op s).1.db = db, (exec pg ω op s).2 = answer at heffect ⊢
  cases heffect with
  | same op notifications answer kept => rfl
  | @insert n row wanted new keys named =>
      have hw : row.workspaceId = w := by
        rw [wanted]
        exact h
      -- the new row is in `w`, so the filter drops it
      show (s.db.tasks ++ [row]).filter _ = _
      rw [List.filter_append, List.filter_cons_of_neg (by simp [hw]), List.filter_nil,
        List.append_nil]
      rfl
  | reinsert wanted gone keys =>
      -- the row of the object is there
      obtain ⟨-, r, hr, hre⟩ := h
      obtain ⟨hne, -, -⟩ := toRow_some wanted
      exact absurd (hre.id.trans hne.id.symm) (lookup_eq_none.mp gone r hr)
  | @update e saved old new wanted stored writes keys =>
      obtain ⟨hw, hmem⟩ := h
      obtain ⟨hne, -, -⟩ := toRow_some wanted
      have hsame := same_of_toRow hids wanted stored hmem
      have hstored : lookup Task.id (updateRow (s.now + ω.elapsed) old new).id
          s.db.tasks = some old := stored
      refine tasksElsewhere_replace hids hstored
        ((updateRow_identity _ old new).trans hsame) ?_
      rw [← hsame.workspaceId, hne.workspaceId, hw]
  | @softRemove t row stored =>
      obtain ⟨hw, r, hr, hre⟩ := h
      obtain ⟨hmem, hid⟩ := lookup_mem stored
      have heq : r = row := hids.eq_of_key hr hmem (hre.id.trans hid.symm)
      have hstored : lookup Task.id (markDeleted (s.now + ω.elapsed) row).id s.db.tasks
          = some row := hid ▸ stored
      refine tasksElsewhere_replace hids hstored (markDeleted_identity _ row) ?_
      rw [← heq, hre.workspaceId, hw]

theorem writesWithin_of_reads {w : String} {s : TaskState} {op : TaskOp}
    (h : ¬ WritesTasks op) : WritesWithin w s op := by
  cases op with
  | insert n => exact absurd trivial h
  | save e => exact absurd trivial h
  | softRemove t => exact absurd trivial h
  | _ => trivial

/-- What a call under the workspace `w` sees to. -/
abbrev StaysIn (w : String) (p : TaskProg TaskReply) (s : TaskState) : Prop :=
  Upholds (tenancy pg) (WritesWithin w)
    (fun out => ∀ reply, out = .ok reply → ∀ t ∈ reply.tasks, t.workspaceId = w) p s

theorem staysIn_error {w : String} (e : HttpError) :
    ∀ reply, (.error e : Except HttpError TaskReply) = .ok reply →
      ∀ t ∈ reply.tasks, t.workspaceId = w := by
  intro reply h
  cases h

theorem not_writes_of_quiet {op : TaskOp} (h : Quiet op) : ¬ WritesTasks op := by
  cases op with
  | insert n => exact absurd h not_false
  | save e => exact absurd h not_false
  | softRemove t => exact absurd h not_false
  | _ => exact not_false

/-- The rest of a call that writes no more. -/
theorem staysIn_of_quiet {w : String} {p : TaskProg TaskReply} (h : OnlyIssues Quiet p)
    (hr : Returns (fun reply : TaskReply => ∀ t ∈ reply.tasks, t.workspaceId = w) p)
    (s : TaskState) : StaysIn pg w p s := by
  refine h.upholds ?_ hr ?_ (fun e => staysIn_error e) s
  · exact fun s op hop => writesWithin_of_reads (not_writes_of_quiet hop)
  · intro reply hreply reply' heq
    rw [← Except.ok.inj heq]
    exact hreply

/-- `findById`, and what follows once the task is loaded. -/
theorem staysIn_findById {id w : String} {f : LoadedTask → TaskProg TaskReply}
    (hf : ∀ t s, Loaded id w t s.db → StaysIn pg w (f t) s) (s : TaskState) :
    StaysIn pg w (findById id w >>= f) s := by
  have hkeep : ∀ {t : LoadedTask} {s : TaskState} (ω : Choice) (op : TaskOp),
      ¬ WritesTasks op → Loaded id w t s.db → Loaded id w t (exec pg ω op s).1.db :=
    fun ω op hop h => h.later (RowsStay.of_tasks (exec_tasks pg ω op _ hop))
  have hdb : ∀ s, StaysIn pg w (findInDatabase id w >>= f) s := by
    intro s
    simp only [findInDatabase, Prog.perform_bind, Prog.await_bind]
    intro s₁ _ _
    refine ⟨trivial, fun _ ω₁ => ?_⟩
    cases ht : (exec pg ω₁ (.findOne id w) s₁).2 with
    | none => exact staysIn_error _
    | some t =>
        obtain ⟨-, hmem, hid, hw, hlive⟩ := findOneTask_some ht
        have hloaded : Loaded id w t s₁.db :=
          ⟨hid, hw, hlive, t.row, hmem, SameIdentity.refl _⟩
        intro s₂ _ hr₂
        refine ⟨trivial, fun _ ω₂ => hf t _ ?_⟩
        exact hkeep ω₂ _ not_false
          ((hkeep ω₁ (.findOne id w) not_false hloaded).later hr₂.1)
  simp only [findById, Prog.perform_bind, Prog.await_bind]
  intro s₁ hinv₁ _
  refine ⟨trivial, fun _ ω₁ => ?_⟩
  cases hc : (exec pg ω₁ (.cacheGet (getTaskCacheKey id)) s₁).2 with
  | none => exact hdb _
  | some v =>
      cases v with
      | tasks page => exact hdb _
      | workspace ws => exact hdb _
      | projects l => exact hdb _
      | task t =>
          by_cases hw : t.row.workspaceId = w
          · simp only [if_pos hw, Prog.done_bind]
            obtain ⟨hkey, hlive, hstored⟩ := hinv₁.1.cached _ t (wait_cache hc)
            refine hf t _ (hkeep ω₁ (.cacheGet (getTaskCacheKey id)) not_false ?_)
            exact ⟨getTaskCacheKey_injective hkey.symm, hw, hlive, hstored⟩
          · simp only [if_neg hw]
            exact hdb _

theorem findById_staysIn (id w : String) (s : TaskState) :
    StaysIn pg w (TaskCall.findById id w).prog s := by
  refine staysIn_findById pg ?_ s
  intro t s hl reply heq t' ht'
  cases heq
  rw [List.mem_singleton.mp ht']
  exact hl.workspaceId

theorem deleteTask_staysIn (id w u : String) (s : TaskState) :
    StaysIn pg w (deleteTask id w u) s := by
  refine staysIn_findById pg ?_ s
  intro t s hl s₁ _ hr₁
  refine ⟨⟨hl.workspaceId, (hl.later hr₁.1).stored⟩, fun _ ω => ?_⟩
  refine staysIn_of_quiet pg ?_ ?_ _
  · exact ⟨trivial, fun _ => ⟨trivial, fun _ => ⟨trivial, fun _ => ⟨trivial, fun _ =>
      ⟨trivial, fun _ => ⟨trivial, fun _ => trivial⟩⟩⟩⟩⟩⟩
  · exact fun _ _ _ _ _ _ t ht => absurd ht List.not_mem_nil

theorem updateTask_staysIn (id w u : String) (dto : UpdateTaskDto) (s : TaskState) :
    StaysIn pg w (updateTask id w u dto) s := by
  refine staysIn_findById pg ?_ s
  intro t s hl
  unfold updateLoaded
  by_cases hv : versionMismatch dto.version t.row.version = true
  · rw [if_pos hv]
    exact staysIn_error _
  · rw [if_neg hv]
    refine (completionTime_quiet dto t).upholds_bind
      (fun s op hop => writesWithin_of_reads (not_writes_of_quiet hop)) ?_
      (fun e => staysIn_error e) s ?_
    · intro ω s op hop
      exact ⟨RowsStay.of_tasks (exec_tasks pg ω op s (not_writes_of_quiet hop)),
        (exec_static pg ω op s).2.1⟩
    · intro c s₁ hr₁ s₂ _ hr₂
      obtain ⟨r, hr, hs⟩ := (hl.later (hr₁.1.trans hr₂.1)).stored
      refine ⟨⟨hl.workspaceId, r, hr,
        ⟨hs.id, hs.workspaceId, hs.projectId, hs.parentTaskId, hs.createdAt⟩⟩,
          fun _ ω => ?_⟩
      cases hsaved : (exec pg ω (.save (applyDto t dto c)) s₂).2 with
      | error e => exact staysIn_error e
      | ok saved =>
          refine staysIn_of_quiet pg (afterSave_quiet _ _ _ _ _ _) ?_ _
          have hw : saved.row.workspaceId = w :=
            (exec_save_returns pg hsaved).workspaceId.trans hl.workspaceId
          have hrest : Returns (fun reply : TaskReply => ∀ t ∈ reply.tasks, t.workspaceId = w)
              (announceUpdate id w u saved (completes dto t) (assigneeChanges dto t) >>= fun _ =>
                  ask (.emit (.taskUpdated w saved)) >>= fun _ => .done (.updated saved)) := by
            refine Returns.bind fun _ _ t' ht' => ?_
            rw [List.mem_singleton.mp ht']
            exact hw
          exact fun _ _ _ => hrest

theorem getTasks_staysIn {w : String} (p : String) (q : QueryTaskDto) (s : TaskState)
    (hw : NoColon w) (hws : ∀ ws ∈ s.db.workspaces, NoColon ws.id) :
    StaysIn pg w (getTasks w p q) s := by
  intro s₁ hinv₁ hr₁
  refine ⟨trivial, fun _ ω₁ => ?_⟩
  cases hv : (exec pg ω₁ (.cacheGet (getListCacheKey w p q)) s₁).2 with
  | some v =>
      intro reply heq t ht
      cases heq
      cases v with
      | workspace ws => exact absurd ht List.not_mem_nil
      | projects l => exact absurd ht List.not_mem_nil
      | task t' =>
          -- a task stands under the key of its id, never under a list key
          obtain ⟨hkey, -⟩ := hinv₁.1.cached _ t' (wait_cache hv)
          exact absurd hkey.symm (taskKey_ne_listKey _ _ _ _)
      | tasks page =>
          obtain ⟨item, hitem, rfl⟩ := List.mem_map.mp ht
          obtain ⟨⟨p', q', hkey⟩, ws, hmem, hid⟩ :=
            hinv₁.2 _ page (wait_cache hv) item hitem
          rw [hr₁.2] at hmem
          exact (listKey_workspace hw (hid ▸ hws ws hmem) hkey).symm
  | none =>
      intro s₂ _ _
      refine ⟨trivial, fun _ ω₂ => fun s₃ _ _ => ⟨trivial, fun _ ω₃ => ?_⟩⟩
      intro reply heq t ht
      cases heq
      obtain ⟨item, hitem, rfl⟩ := List.mem_map.mp ht
      exact listTasks_workspace pg hitem

theorem createTask_staysIn (w p u : String) (dto : CreateTaskDto) (s : TaskState) :
    StaysIn pg w (createTask w p u dto) s := by
  intro s₁ _ _
  refine ⟨rfl, fun _ ω => ?_⟩
  rcases exec_insert_cases pg ω _ s₁ with ⟨e, h⟩ | ⟨db, row, hins, h⟩
  · rw [h]
    exact staysIn_error e
  · obtain ⟨-, -, -, hrow, -⟩ := insertTask_ok hins
    have hw : row.workspaceId = w := by
      rw [hrow]
      rfl
    rw [h]
    refine staysIn_of_quiet pg ?_ ?_ _
    · exact ⟨trivial, fun _ => ⟨trivial, fun _ => ⟨trivial, fun _ => ⟨trivial, fun _ =>
        (notifyAssignee_quiet dto).bind fun _ => trivial⟩⟩⟩⟩
    · have hrest : Returns (fun reply : TaskReply => ∀ t ∈ reply.tasks, t.workspaceId = w)
          (notifyAssignee dto >>= fun _ => .done (.created row)) := by
        refine Returns.bind fun _ t ht => ?_
        rw [List.mem_singleton.mp ht]
        exact hw
      exact fun _ _ _ _ => hrest

/-- The workspace that a call is issued under. -/
def TaskCall.workspaceId : TaskCall → String
  | .createTask w _ _ _ => w
  | .getTasks w _ _ => w
  | .findById _ w => w
  | .updateTask _ w _ _ => w
  | .deleteTask _ w _ => w

theorem call_staysIn (c : TaskCall) (s : TaskState) (hw : NoColon c.workspaceId)
    (hws : ∀ ws ∈ s.db.workspaces, NoColon ws.id) : StaysIn pg c.workspaceId c.prog s := by
  cases c with
  | createTask w p u dto => exact createTask_staysIn pg w p u dto s
  | getTasks w p q => exact getTasks_staysIn pg p q s hw hws
  | findById id w => exact findById_staysIn pg id w s
  | updateTask id w u dto => exact updateTask_staysIn pg id w u dto s
  | deleteTask id w u => exact deleteTask_staysIn pg id w u s

end Tenancy

/-- **Task calls stay in their tenant.**  From a fresh state, in every interleaving of any
    task calls under any workspaces: a call under an existing workspace returns tasks of
    this workspace only, and none of its steps changes a row of another one. -/
theorem task_calls_stay_in_tenant (pg : PostgresText) (s₀ : TaskState) (h₀ : Fresh s₀)
    (hids : ∀ ws ∈ s₀.db.workspaces, NoColon ws.id) (calls : List TaskCall)
    (l : List (Nat × Choice)) (i : Nat) (call : TaskCall) (hcall : calls[i]? = some call)
    (hws : ∃ ws ∈ s₀.db.workspaces, ws.id = call.workspaceId) :
    (∀ reply, (run (exec pg) (pool s₀ calls) l).calls[i]? = some (.done reply) →
      ∀ t ∈ reply.tasks, t.workspaceId = call.workspaceId) ∧
    ∀ l₁ ω l₂, l = l₁ ++ (i, ω) :: l₂ →
      tasksElsewhere call.workspaceId
          (run (exec pg) (pool s₀ calls) (l₁ ++ [(i, ω)])).shared.db
        = tasksElsewhere call.workspaceId (run (exec pg) (pool s₀ calls) l₁).shared.db := by
  have hpages : PagesPlaced s₀ := by
    intro key page h
    rw [h₀.cache key] at h
    cases h
  have horderly := pool_tenancy pg h₀.consistent hpages calls
  obtain ⟨ws, hmem, hid⟩ := hws
  have hstays := call_staysIn pg call s₀ (hid ▸ hids ws hmem) hids
  have hstart : (pool s₀ calls).calls[i]? = some call.prog := by
    show (calls.map TaskCall.prog)[i]? = _
    rw [List.getElem?_map, hcall]
    rfl
  have hmeets : ∀ l, Meets (exec pg) (OnOp (tenancy pg).granted) (pool s₀ calls) l :=
    fun l => meets_of_forall (exec pg) (fun _ _ _ _ _ => trivial) _ l
  constructor
  · intro reply hdone
    exact hstays.run horderly hstart (hmeets l) hdone reply rfl
  · intro l₁ ω l₂ hl
    rw [run_append, run_cons, run_nil]
    rcases step_cases (exec pg) (run (exec pg) (pool s₀ calls) l₁) i ω with
      h0 | ⟨op, k, hop, h0⟩
    · rw [h0]
    · have hwithin := hstays.step horderly hstart (hmeets (l₁ ++ (i, ω) :: l₂)) hop
      have hcons := (follows_run horderly (hmeets l₁)).1.inv.1
      rw [h0]
      exact hwithin.elsewhere pg ω hcons.ids

/-- Two tenants: beside the office, a workspace of Bob's with a project. -/
def twoCompanies : TaskState :=
  { office with
    db := { office.db with
      workspaces := [⟨"w", "Work", "work", "a"⟩, ⟨"v", "Venture", "venture", "b"⟩]
      members := [⟨"w", "a", .admin⟩, ⟨"v", "b", .admin⟩]
      projects := [⟨"p", "w", "Project", none, "ACTIVE", 0⟩,
        ⟨"q", "v", "Quest", none, "ACTIVE", 0⟩] } }

/-- Each tenant makes a task, and one lists its own. -/
def oneTaskEach : List TaskCall :=
  [.createTask "w" "p" "a" { title := "Plan" }, .createTask "v" "q" "b" { title := "Budget" },
    .getTasks "w" "p" ⟨none, none, none, none, none, none, none, none⟩]

/-- The first two take turns; their tasks are "10" and "11". -/
def bothBusy : List (Nat × Choice) :=
  [0, 1, 0, 1, 0, 1, 0, 1, 0, 1, 2, 2, 2].map fun i => (i, ⟨0, [], "1" ++ toString i⟩)

theorem listed_in_tenant :
    (∀ reply, (run (exec plainText) (pool twoCompanies oneTaskEach) bothBusy).calls[2]?
        = some (.done reply) → ∀ t ∈ reply.tasks, t.workspaceId = "w") ∧
      ∀ l₁ ω l₂, bothBusy = l₁ ++ (0, ω) :: l₂ →
        tasksElsewhere "w"
            (run (exec plainText) (pool twoCompanies oneTaskEach) (l₁ ++ [(0, ω)])).shared.db
          = tasksElsewhere "w"
              (run (exec plainText) (pool twoCompanies oneTaskEach) l₁).shared.db := by
  have hfresh : Fresh twoCompanies := ⟨rfl, fun _ => rfl⟩
  have hids : ∀ ws ∈ twoCompanies.db.workspaces, NoColon ws.id := by
    unfold NoColon
    decide
  have hw : ∃ ws ∈ twoCompanies.db.workspaces, ws.id = "w" :=
    ⟨⟨"w", "Work", "work", "a"⟩, by decide, rfl⟩
  constructor
  · exact (task_calls_stay_in_tenant plainText twoCompanies hfresh hids oneTaskEach bothBusy 2
      (.getTasks "w" "p" ⟨none, none, none, none, none, none, none, none⟩) rfl hw).1
  · exact (task_calls_stay_in_tenant plainText twoCompanies hfresh hids oneTaskEach bothBusy 0
      (.createTask "w" "p" "a" { title := "Plan" }) rfl hw).2

/-- Two tasks are there in the end, and the list has one. -/
example : ((run (exec plainText) (pool twoCompanies oneTaskEach) bothBusy).calls[2]?.bind
    Prog.outcome).map (fun out => out.toOption.map fun reply => reply.tasks.map Task.id)
      = some (some ["10"]) ∧
    (run (exec plainText) (pool twoCompanies oneTaskEach) bothBusy).shared.db.tasks.length = 2 := by
  decide +kernel

end PlatformTasks
