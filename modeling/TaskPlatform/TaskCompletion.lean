import TaskPlatform.TaskRuns

/-! # Completion time and status

    `updateTask` decides about the completion time from the object that it has loaded,
    which may be an old copy, and writes the object back over whatever the row has
    become.  A completion time still goes with the status DONE in every row, since it
    does in every object that a call can hold: in the rows, in the cached copies, and
    in the object after the request has been applied to it. -/

namespace PlatformTasks

open AsyncProgram Interleaving PlatformEntities RowTable

/-- There is a completion time exactly when the task is done. -/
def Stamped (status : TaskStatus) (completedAt : Option Nat) : Prop :=
  completedAt.isSome = true ↔ status = .done

/-- What a call sees to: it caches and saves stamped objects. -/
def StampDuty : TaskProg TaskReply → Prop
  | .await (.cacheSet _ (.task t) _) _ => Stamped t.row.status t.row.completedAt
  | .await (.insert n) _ => n.status ≠ .done
  | .await (.save e) _ => ∀ status, e.status = some status →
      Stamped status e.row.completedAt
  | _ => True

/-- All rows and all cached tasks are stamped. -/
structure AllStamped (s : TaskState) : Prop where
  rows : ∀ r ∈ s.db.tasks, Stamped r.status r.completedAt
  cached : ∀ k t, s.cache k = some (.task t) → Stamped t.row.status t.row.completedAt

section Completion

variable (pg : PostgresText)

/-- The row of a stamped object is stamped. -/
theorem stamped_toRow {e : TaskEntity} {stored : Option Task} {row : Task}
    (h : e.toRow stored = some row)
    (he : ∀ status, e.status = some status → Stamped status e.row.completedAt) :
    Stamped row.status row.completedAt := by
  obtain ⟨r, title, status, priority, assignee, creator⟩ := e
  cases title with
  | none => cases h
  | some title =>
      cases status with
      | none => cases h
      | some status =>
          cases priority with
          | none => cases h
          | some priority =>
              rw [← Option.some.inj h]
              exact he status rfl

theorem exec_stamped (ω : Choice) (op : TaskOp) (k : op.Res → TaskProg TaskReply)
    (s : TaskState) (h : AllStamped s) (howes : StampDuty (.await op k)) :
    AllStamped (exec pg ω op s).1 := by
  constructor
  · have heffect := exec_effect pg ω op s
    generalize (exec pg ω op s).1.db = db, (exec pg ω op s).2 = answer at heffect ⊢
    cases heffect with
    | same op notifications answer kept => exact h.rows
    | insert wanted new keys named =>
        intro r hr
        rcases List.mem_append.mp hr with hr | hr
        · exact h.rows r hr
        · rw [List.mem_singleton.mp hr, wanted]
          constructor
          · intro hsome
            cases hsome
          · exact fun hdone => absurd hdone howes
    | reinsert wanted gone keys =>
        intro r hr
        rcases List.mem_append.mp hr with hr | hr
        · exact h.rows r hr
        · rw [List.mem_singleton.mp hr]
          exact stamped_toRow wanted howes
    | @update e saved old new wanted stored writes keys =>
        intro r hr
        rcases mem_replace.mp hr with ⟨rfl, -⟩ | ⟨hr, -⟩
        · have hnew : Stamped new.status new.completedAt := stamped_toRow wanted howes
          exact hnew
        · exact h.rows r hr
    | @softRemove t row stored =>
        intro r hr
        rcases mem_replace.mp hr with ⟨rfl, -⟩ | ⟨hr, -⟩
        · exact h.rows row (lookup_mem stored).1
        · exact h.rows r hr
  · intro key t hkey
    rcases exec_cache pg hkey with hold | ⟨ttl, rfl⟩
    · exact h.cached key t hold
    · exact howes

/-- The bargain of the task calls about completion times. -/
def completion : Discipline (exec pg) HttpError TaskReply where
  inv := AllStamped
  rely _ _ := True
  refl _ := trivial
  trans _ _ _ _ _ := trivial
  granted _ _ := True
  owes _ := StampDuty
  keep := fun ω op k s hinv howes _ => ⟨exec_stamped pg ω op k s hinv howes, trivial⟩

theorem stampDuty_of_quiet (op : TaskOp) (k : op.Res → TaskProg TaskReply)
    (h : Quiet op) : StampDuty (.await op k) := by
  cases op with
  | cacheSet key v ttl => exact absurd h not_false
  | insert n => exact absurd h not_false
  | save e => exact absurd h not_false
  | _ => trivial

theorem completion_of_quiet {p : TaskProg TaskReply} (h : OnlyIssues Quiet p)
    (s : TaskState) : Follows (completion pg) p s :=
  h.follows (fun _ op k hq => stampDuty_of_quiet op k hq) (fun _ _ => trivial)
    (fun _ _ => trivial) s

/-- The completion time that `updateTask` decides on fits the status it will save. -/
def Fits (dto : UpdateTaskDto) (t : LoadedTask) (completedAt : Option Nat) : Prop :=
  ∀ status, dto.status.assign (some t.row.status) = some status → Stamped status completedAt

theorem completionTime_fits (dto : UpdateTaskDto) (t : LoadedTask)
    (ht : Stamped t.row.status t.row.completedAt) :
    Returns (Fits dto t) (completionTime dto t) := by
  unfold completionTime
  by_cases hcomp : completes dto t = true
  · rw [if_pos hcomp]
    intro now status hstatus
    rw [completes, Bool.and_eq_true, decide_eq_true_eq] at hcomp
    rw [hcomp.1] at hstatus
    rw [← Option.some.inj hstatus]
    exact ⟨fun _ => rfl, fun _ => rfl⟩
  · rw [if_neg hcomp]
    cases hdto : dto.status with
    | undefined =>
        intro status hstatus
        rw [hdto] at hstatus
        rw [← Option.some.inj hstatus]
        exact ht
    | null =>
        intro status hstatus
        rw [hdto] at hstatus
        cases hstatus
    | val st =>
        have hother : st ≠ .done → Fits dto t none := by
          intro hne status hstatus
          rw [hdto] at hstatus
          rw [← Option.some.inj hstatus]
          constructor
          · intro h
            cases h
          · exact fun h => absurd h hne
        cases st with
        | done =>
            -- the task was done before, and keeps its time
            intro status hstatus
            rw [hdto] at hstatus
            rw [← Option.some.inj hstatus]
            have hdone : t.row.status = .done := by
              by_contra hne
              exact hcomp (by simp [completes, hdto, hne])
            rw [hdone] at ht
            exact ht
        | todo => exact hother (by decide)
        | inProgress => exact hother (by decide)
        | blocked => exact hother (by decide)

/-- `findById`, and what follows, under this bargain. -/
theorem completion_findById {id w : String} {f : LoadedTask → TaskProg TaskReply}
    (hf : ∀ t s, Stamped t.row.status t.row.completedAt → Follows (completion pg) (f t) s)
    (s : TaskState) : Follows (completion pg) (findById id w >>= f) s := by
  refine follows_findById pg (P := fun t _ => Stamped t.row.status t.row.completedAt)
    (fun _ op k hq => stampDuty_of_quiet op k hq) (fun _ _ => trivial)
    (fun _ _ _ h _ => h) ?_ ?_ (fun _ _ _ _ h => h) hf s
  · exact fun s t hinv hget _ => hinv.cached _ t hget
  · intro s t hinv ht
    exact hinv.rows _ (findOneTask_some ht).2.1

theorem call_completion (c : TaskCall) (s : TaskState) :
    Follows (completion pg) c.prog s := by
  cases c with
  | createTask w p u dto =>
      intro s₁ _ _
      refine ⟨?_, fun _ ω => completion_of_quiet pg ?_ _⟩
      · intro h
        cases h
      · cases (exec pg ω (.insert _) s₁).2 with
        | error e => trivial
        | ok row =>
            exact ⟨trivial, fun _ =>
              ⟨trivial, fun _ => ⟨trivial, fun _ => ⟨trivial, fun _ =>
              (notifyAssignee_quiet dto).bind fun _ => trivial⟩⟩⟩⟩
  | getTasks w p q =>
      intro s₁ _ _
      refine ⟨trivial, fun _ ω₁ => ?_⟩
      cases (exec pg ω₁ (.cacheGet (getListCacheKey w p q)) s₁).2 with
      | some v => exact fun _ _ _ => trivial
      | none =>
          intro s₂ _ _
          exact ⟨trivial, fun _ ω₂ => fun s₃ _ _ =>
            ⟨trivial, fun _ ω₃ => fun _ _ _ => trivial⟩⟩
  | findById id w =>
      refine completion_findById pg ?_ s
      exact fun t s _ s' _ _ => trivial
  | deleteTask id w u =>
      refine completion_findById pg ?_ s
      intro t s _ s₁ _ _
      refine ⟨trivial, fun _ ω => completion_of_quiet pg ?_ _⟩
      exact ⟨trivial, fun _ => ⟨trivial, fun _ => ⟨trivial, fun _ => ⟨trivial, fun _ =>
        ⟨trivial, fun _ => ⟨trivial, fun _ => trivial⟩⟩⟩⟩⟩⟩
  | updateTask id w u dto =>
      refine completion_findById pg ?_ s
      intro t s ht
      unfold updateLoaded
      by_cases hv : versionMismatch dto.version t.row.version = true
      · rw [if_pos hv]
        exact fun _ _ _ => trivial
      · rw [if_neg hv]
        refine (completionTime_quiet dto t).follows_bind_returns
          (fun _ op k hq => stampDuty_of_quiet op k hq) (fun _ _ => trivial)
          (fun _ _ => trivial) (completionTime_fits dto t ht) s ?_
        intro c s₁ hc _ s₂ _ _
        refine ⟨hc, fun _ ω => completion_of_quiet pg ?_ _⟩
        cases (exec pg ω (.save (applyDto t dto c)) s₂).2 with
        | error e => trivial
        | ok saved => exact afterSave_quiet _ _ _ _ _ _

end Completion

/-- **Completion time matches status.**  In every state that interleaved calls reach from a
    fresh one, a task has a completion time exactly when it is done. -/
theorem completed_iff_done (pg : PostgresText) (s : TaskState) (hs : Reachable pg s)
    (t : Task) (ht : t ∈ s.db.tasks) : t.completedAt ≠ none ↔ t.status = .done := by
  obtain ⟨s₀, calls, l, hfresh, rfl⟩ := hs
  have h0 : Orderly (completion pg) (pool s₀ calls) := by
    refine ⟨⟨?_, ?_⟩, ?_⟩
    · intro r hr
      rw [show (pool s₀ calls).shared.db.tasks = [] from hfresh.tasks] at hr
      exact absurd hr List.not_mem_nil
    · intro k t hk
      rw [show (pool s₀ calls).shared.cache k = none from hfresh.cache k] at hk
      cases hk
    · intro p hp
      obtain ⟨c, -, rfl⟩ := List.mem_map.mp hp
      exact call_completion pg c s₀
  have hend := (follows_run h0 (meets_of_forall (exec pg) (fun _ _ _ _ _ => trivial) _ l)).1
  rw [Option.ne_none_iff_isSome]
  exact hend.inv.rows t ht

/-- The task "1" of the office, completed. -/
def completedOffice : TaskState :=
  (run (exec plainText)
    (pool office [.createTask "w" "p" "a" { title := "Plan" },
      .updateTask "1" "w" "a" { status := .val .done }])
    (turns [0, 0, 0, 0, 0, 1, 1, 1, 1, 1, 1, 1, 1, 1])).shared

/-- Its row: saved twice, done and stamped. -/
def doneTask : Task :=
  { (NewTask.mk "w" "p" "Plan" none none .medium .todo none none none (some []) "a").row "1" 0
    with status := .done, completedAt := some 0, version := 2 }

theorem doneTask_stamped : doneTask.completedAt ≠ none ↔ doneTask.status = .done :=
  completed_iff_done plainText completedOffice ⟨office, _, _, ⟨rfl, fun _ => rfl⟩, rfl⟩
    doneTask (by decide)

end PlatformTasks
