import TaskPlatform.IdSpelling

/-! # What a call owes for its write

    A task call writes the tasks at most once: with the insert of `createTask`, the save of
    `updateTask` or the removal of `deleteTask`, and the last two write a task that the call
    has loaded under the id and the workspace that it was asked for.  So a promise `A` about
    the rest of a call has to be seen to at these three places only (`Owed`), and holds along
    every interleaving (`Owed.follows`). -/

namespace PlatformDuties

open AsyncProgram Interleaving PlatformEntities PlatformTasks RowTable

/-- `updateTask` from its save. -/
def saveLoaded (id workspaceId userId : String) (dto : UpdateTaskDto) (task : LoadedTask)
    (completedAt : Option Nat) : TaskProg TaskReply := do
  let saved ← ask (.save (applyDto task dto completedAt))
  match saved with
  | .error e => .fail e
  | .ok saved => afterSave id workspaceId userId dto task saved

/-- `deleteTask` from its removal. -/
def removeLoaded (id workspaceId userId : String) (task : LoadedTask) : TaskProg TaskReply := do
  ask (.softRemove task)
  ask (.cacheDel (getTaskCacheKey id))
  ask (.cacheDelPattern (getListCachePattern workspaceId task.row.projectId))
  ask (.auditLog "TASK_DELETE" userId (.deleted id workspaceId))
  ask (.activityLog workspaceId "TASK" id "TASK_DELETED" userId)
  let now ← ask .currentTime
  ask (.emit (.taskDeleted workspaceId id now))
  .done .deleted

/-- The promise is kept where a call writes, and there is none elsewhere. -/
structure Owed (A : TaskProg TaskReply → Prop) : Prop where
  quiet : ∀ op k, Quiet op → A (.await op k)
  fill : ∀ key value ttl k, A (.await (.cacheSet key value ttl) k)
  done : ∀ reply, A (.done reply)
  fail : ∀ e, A (.fail e)
  create : ∀ w p u dto, A (createTask w p u dto)
  save : ∀ u dto t completedAt, A (saveLoaded t.row.id t.row.workspaceId u dto t completedAt)
  remove : ∀ u t, A (removeLoaded t.row.id t.row.workspaceId u t)

section Bargain

variable (pg : PostgresText) {A : TaskProg TaskReply → Prop}

/-- The bargain of the task calls, with a promise about the rest of a call. -/
def bargain (A : TaskProg TaskReply → Prop) : Discipline (exec pg) HttpError TaskReply where
  inv := (taskService pg).inv
  rely := (taskService pg).rely
  refl := (taskService pg).refl
  trans := (taskService pg).trans
  granted _ _ := True
  owes s p := Duty s p ∧ A p
  keep ω op k s hinv howes hgranted := (taskService pg).keep ω op k s hinv howes.1 hgranted

namespace Owed

theorem owes (hA : Owed A) (s : TaskState) (op : TaskOp) (k : op.Res → TaskProg TaskReply)
    (h : Quiet op) : (bargain pg A).owes s (.await op k) :=
  ⟨duty_of_quiet s op k h, hA.quiet op k h⟩

theorem quietly (hA : Owed A) {p : TaskProg TaskReply} (h : OnlyIssues Quiet p)
    (s : TaskState) : Follows (bargain pg A) p s :=
  h.follows (hA.owes pg) (fun _ _ => ⟨trivial, hA.done _⟩)
    (fun _ _ => ⟨trivial, hA.fail _⟩) s

theorem findById (hA : Owed A) {id w : String} {f : LoadedTask → TaskProg TaskReply}
    (hf : ∀ t s, Loaded id w t s.db → Follows (bargain pg A) (f t) s) (s : TaskState) :
    Follows (bargain pg A) (PlatformTasks.findById id w >>= f) s := by
  refine follows_findById pg (P := fun t s => Loaded id w t s.db) (hA.owes pg)
    (fun _ _ => ⟨trivial, hA.fail _⟩) (fun t s s' h hr => h.later hr) ?_ ?_ ?_ hf s
  · intro s t hinv hget hw
    obtain ⟨hkey, hlive, hstored⟩ := hinv.cached _ t hget
    exact ⟨getTaskCacheKey_injective hkey.symm, hw, hlive, hstored⟩
  · intro s t _ ht
    obtain ⟨-, hmem, hid, hw, hlive⟩ := findOneTask_some ht
    exact ⟨hid, hw, hlive, t.row, hmem, SameIdentity.refl _⟩
  · intro s t ttl k hl
    exact ⟨⟨by rw [hl.id], hl.live, hl.stored⟩, hA.fill _ _ _ _⟩

theorem createTask (hA : Owed A) (w p u : String) (dto : CreateTaskDto) (s : TaskState) :
    Follows (bargain pg A) (PlatformTasks.createTask w p u dto) s := by
  intro s₁ _ _
  refine ⟨⟨?_, hA.create w p u dto⟩, fun _ ω => ?_⟩
  · intro row hw hp key hkey
    rw [hw, hp] at hkey
    exact Or.inl hkey
  · refine hA.quietly pg ?_ _
    cases (exec pg ω (.insert _) s₁).2 with
    | error e => trivial
    | ok row =>
        exact ⟨trivial, fun _ => ⟨trivial, fun _ => ⟨trivial, fun _ => ⟨trivial, fun _ =>
          (notifyAssignee_quiet dto).bind fun _ => trivial⟩⟩⟩⟩

theorem updateTask (hA : Owed A) (id w u : String) (dto : UpdateTaskDto) (s : TaskState) :
    Follows (bargain pg A) (PlatformTasks.updateTask id w u dto) s := by
  refine hA.findById pg ?_ s
  intro t s hl
  unfold updateLoaded
  by_cases hv : versionMismatch dto.version t.row.version = true
  · rw [if_pos hv]
    exact fun _ _ _ => ⟨trivial, hA.fail _⟩
  · rw [if_neg hv]
    refine (completionTime_quiet dto t).follows_bind (hA.owes pg)
      (fun _ _ => ⟨trivial, hA.fail _⟩) (fun _ _ => trivial) s ?_
    intro c s₁ hr₁ s₂ _ hr₂
    obtain ⟨r, hr, hs⟩ := (hl.later (hr₁.trans hr₂)).stored
    refine ⟨⟨⟨hl.live, ⟨r, hr, ?_⟩, ?_⟩, ?_⟩, fun _ ω => ?_⟩
    · exact ⟨hs.id, hs.workspaceId, hs.projectId, hs.parentTaskId, hs.createdAt⟩
    · intro saved
      exact invalidates_intro hl.id hl.workspaceId rfl
    · have hsave := hA.save u dto t c
      rw [hl.id, hl.workspaceId] at hsave
      exact hsave
    · cases (exec pg ω (.save (applyDto t dto c)) s₂).2 with
      | error e => exact fun _ _ _ => ⟨trivial, hA.fail _⟩
      | ok saved => exact hA.quietly pg (afterSave_quiet _ _ _ _ _ _) _

theorem deleteTask (hA : Owed A) (id w u : String) (s : TaskState) :
    Follows (bargain pg A) (PlatformTasks.deleteTask id w u) s := by
  refine hA.findById pg ?_ s
  intro t s hl s₁ _ hr₁
  refine ⟨⟨⟨(hl.later hr₁).stored, invalidates_intro hl.id hl.workspaceId rfl⟩, ?_⟩,
    fun _ ω => hA.quietly pg ?_ _⟩
  · have hremove := hA.remove u t
    rw [hl.id, hl.workspaceId] at hremove
    exact hremove
  · exact ⟨trivial, fun _ => ⟨trivial, fun _ => ⟨trivial, fun _ => ⟨trivial, fun _ =>
      ⟨trivial, fun _ => ⟨trivial, fun _ => trivial⟩⟩⟩⟩⟩⟩

/-- **Every call keeps the promise.** -/
theorem follows (hA : Owed A) (c : TaskCall) (s : TaskState) :
    Follows (bargain pg A) c.prog s := by
  cases c with
  | createTask w p u dto => exact hA.createTask pg w p u dto s
  | getTasks w p q =>
      intro s₁ _ _
      refine ⟨⟨trivial, hA.quiet _ _ trivial⟩, fun _ ω₁ => ?_⟩
      cases (exec pg ω₁ (.cacheGet (getListCacheKey w p q)) s₁).2 with
      | some v => exact fun _ _ _ => ⟨trivial, hA.done _⟩
      | none =>
          intro s₂ _ _
          exact ⟨⟨trivial, hA.quiet _ _ trivial⟩, fun _ ω₂ => fun s₃ _ _ =>
            ⟨⟨trivial, hA.fill _ _ _ _⟩, fun _ ω₃ => fun _ _ _ =>
              ⟨trivial, hA.done _⟩⟩⟩
  | updateTask id w u dto => exact hA.updateTask pg id w u dto s
  | deleteTask id w u => exact hA.deleteTask pg id w u s
  | findById id w =>
      refine hA.findById pg ?_ s
      intro t s hl
      exact fun _ _ _ => ⟨trivial, hA.done _⟩

theorem orderly (hA : Owed A) {s : TaskState} (hs : Consistent s.db s.cache)
    (calls : List TaskCall) : Orderly (bargain pg A) (pool s calls) := by
  refine ⟨hs, ?_⟩
  intro p hp
  obtain ⟨c, -, rfl⟩ := List.mem_map.mp hp
  exact hA.follows pg c s

/-- So do calls that spell their ids as the columns do. -/
theorem orderly_byValue (hA : Owed A) {uuid : String → Option String} {s : TaskState}
    (hs : Consistent s.db s.cache) {calls : List TaskCall}
    (hspelled : ∀ c ∈ calls, c.Spelled uuid) :
    Orderly (bargain pg A) (poolByValue uuid s calls) := by
  refine ⟨hs, ?_⟩
  intro p hp
  obtain ⟨c, hc, rfl⟩ := List.mem_map.mp hp
  rcases TaskCall.byValue_cases (hspelled c hc) with ⟨-, hsame⟩ | ⟨w, p, q, -, -, hlist⟩
  · rw [hsame]
    exact hA.follows pg c s
  · rw [hlist]
    refine hA.quietly pg ((listUnder_none _).mono ?_) s
    rintro op rfl
    trivial

/-- Before each step of a run the state is consistent, and the call that makes the step is
    as good as its word. -/
theorem at_step {c : Pool TaskOp TaskOp.Res HttpError TaskReply TaskState}
    (hc : Orderly (bargain pg A) c) {l : List (Nat × Choice)} {i : Nat} {op : TaskOp}
    {k : op.Res → TaskProg TaskReply}
    (hi : (run (exec pg) c l).calls[i]? = some (.await op k)) :
    Consistent (run (exec pg) c l).shared.db (run (exec pg) c l).shared.cache ∧
      Duty (run (exec pg) c l).shared (.await op k) ∧ A (.await op k) := by
  have hgranted : Meets (exec pg) (OnOp (bargain pg A).granted) c l :=
    meets_of_forall (exec pg) (fun _ _ _ _ _ => trivial) _ l
  have horderly := (follows_run hc hgranted).1
  have howes := (horderly.follows _ (List.mem_of_getElem? hi)).owes horderly.inv
  exact ⟨horderly.inv, howes.1, howes.2⟩

end Owed

end Bargain

end PlatformDuties
