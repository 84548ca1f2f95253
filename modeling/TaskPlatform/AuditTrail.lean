import TaskPlatform.AnswerHistory
import TaskPlatform.PendingWork
import TaskPlatform.WriteDuties

/-! # The trail of the task calls

    The entries for the audit log and the activity log that the task service hands to
    `AuditService.log` and `ActivityService.log`; what becomes of them in the queues is not
    looked at.  In every interleaving of task calls a row
    that changes is named in both by the call that has changed it, whether that call goes on
    to return or to throw (`changes_are_logged`), and no call makes an entry before a write
    of its own has gone through (`entries_follow_writes`). -/

namespace PlatformAudit

open AsyncProgram Interleaving PlatformEntities PlatformTasks RowTable
open PlatformDuties (Owed)

/-! ## Entries -/

/-- What both logs say of a change of a task. -/
structure LogEntry where
  action : String
  userId : String
  workspaceId : String
  taskId : String
  deriving DecidableEq, Repr

/-- What an operation hands to `AuditService.log`. -/
def auditEntry : TaskOp → Option LogEntry
  | .auditLog action userId (.created taskId _ w) => some ⟨action, userId, w, taskId⟩
  | .auditLog action userId (.updated taskId w _ _) => some ⟨action, userId, w, taskId⟩
  | .auditLog action userId (.deleted taskId w) => some ⟨action, userId, w, taskId⟩
  | _ => none

/-- What an operation hands to `ActivityService.log`. -/
def activityEntry : TaskOp → Option LogEntry
  | .activityLog w _ taskId action userId => some ⟨action, userId, w, taskId⟩
  | _ => none

/-- The user who makes the call; reading leaves no trail. -/
def userOf : TaskCall → Option String
  | .createTask _ _ u _ => some u
  | .updateTask _ _ u _ => some u
  | .deleteTask _ _ u => some u
  | _ => none

/-- An entry about this task by this user. -/
def Names (entry : TaskOp → Option LogEntry) (u w id : String) (op : TaskOp) : Prop :=
  ∃ action, entry op = some ⟨action, u, w, id⟩

/-- The rest of a call makes an entry about the task in both logs, come what may. -/
def WillLog (u w id : String) (p : TaskProg TaskReply) : Prop :=
  WillIssueIf (fun _ _ => True) (Names auditEntry u w id) p ∧
    WillIssueIf (fun _ _ => True) (Names activityEntry u w id) p

/-- What a call that is about to write owes to the logs. -/
def Logged : TaskProg TaskReply → Prop
  | .await (.insert n) k => ∀ row, WillLog n.createdBy n.workspaceId row.id (k (.ok row))
  | .await (.save e) k => ∃ u, ∀ saved, WillLog u e.row.workspaceId e.row.id (k (.ok saved))
  | .await (.softRemove t) k => ∃ u, WillLog u t.row.workspaceId t.row.id (k ())
  | _ => True

/-! ## Every write owes both entries -/

theorem afterSave_logs (id w u : String) (dto : UpdateTaskDto) (t : LoadedTask)
    (saved : TaskEntity) : WillLog u w id (afterSave id w u dto t saved) := by
  constructor
  · exact Or.inr fun _ _ => Or.inr fun _ _ => Or.inl ⟨_, rfl⟩
  · refine Or.inr fun _ _ => Or.inr fun _ _ => Or.inr fun _ _ => ?_
    show WillIssueIf _ _ (announceUpdate id w u saved _ _ >>= _)
    unfold announceUpdate
    cases completes dto t with
    | true => exact Or.inl ⟨_, rfl⟩
    | false =>
        cases assigneeChanges dto t with
        | false => exact Or.inl ⟨_, rfl⟩
        | true =>
            cases truthy saved.row.assignedTo with
            | none => exact Or.inl ⟨_, rfl⟩
            | some assignee => exact Or.inl ⟨_, rfl⟩

/-- **Who writes owes the entries.** -/
theorem logged_owed : Owed Logged where
  quiet := by
    intro op k h
    cases op with
    | insert n => exact h.elim
    | save e => exact h.elim
    | softRemove t => exact h.elim
    | _ => trivial
  fill _ _ _ _ := trivial
  done _ := trivial
  fail _ := trivial
  create w p u dto := fun row =>
    ⟨Or.inr fun _ _ => Or.inl ⟨_, rfl⟩, Or.inr fun _ _ => Or.inr fun _ _ =>
      Or.inl ⟨_, rfl⟩⟩
  save u dto t c := ⟨u, fun saved => afterSave_logs t.row.id t.row.workspaceId u dto t saved⟩
  remove u t := ⟨u, Or.inr fun _ _ => Or.inr fun _ _ => Or.inl ⟨_, rfl⟩,
    Or.inr fun _ _ => Or.inr fun _ _ => Or.inr fun _ _ => Or.inl ⟨_, rfl⟩⟩

/-! ## Every entry is signed -/

/-- The operation makes no entry but for this user. -/
def Signed (user : Option String) (op : TaskOp) : Prop :=
  ∀ e, auditEntry op = some e ∨ activityEntry op = some e → user = some e.userId

/-- The operation makes no entry. -/
def Silent (op : TaskOp) : Prop := auditEntry op = none ∧ activityEntry op = none

theorem Silent.signed {op : TaskOp} (h : Silent op) (user : Option String) : Signed user op := by
  rintro e (he | he)
  · rw [h.1] at he
    cases he
  · rw [h.2] at he
    cases he

theorem notification_silent (u ty ti m : String) :
    OnlyIssues Silent (createAndSendNotification u ty ti m) := by
  refine (notification_issues u ty ti m).mono ?_
  rintro op (_ | _ | _ | _) <;> exact ⟨rfl, rfl⟩

theorem findById_silent (id w : String) : OnlyIssues Silent (findById id w) := by
  refine (findById_issues id w).mono ?_
  rintro op (_ | _ | _) <;> exact ⟨rfl, rfl⟩

theorem completionTime_silent (dto : UpdateTaskDto) (t : LoadedTask) :
    OnlyIssues Silent (completionTime dto t) := by
  refine (completionTime_issues dto t).mono ?_
  rintro op rfl
  exact ⟨rfl, rfl⟩

/-- An entry in the audit log is signed by the user it names. -/
theorem signed_auditLog (action u : String) (payload : TaskAudit) :
    Signed (some u) (.auditLog action u payload) := by
  rintro e (he | he)
  · cases payload <;> cases he <;> rfl
  · cases he

/-- And so is one in the activity log. -/
theorem signed_activityLog (w ty id action u : String) :
    Signed (some u) (.activityLog w ty id action u) := by
  rintro e (he | he)
  · cases he
  · cases he
    rfl

theorem announceUpdate_signed (id w u : String) (t : TaskEntity) (completed changed : Bool) :
    OnlyIssues (Signed (some u)) (announceUpdate id w u t completed changed) := by
  refine (announceUpdate_issues id w u t completed changed).mono ?_
  rintro op (action | ⟨_ | _ | _ | _⟩)
  · exact signed_activityLog w "TASK" id action u
  all_goals exact Silent.signed ⟨rfl, rfl⟩ _

theorem notifyAssignee_silent (dto : CreateTaskDto) : OnlyIssues Silent (notifyAssignee dto) := by
  unfold notifyAssignee
  cases truthy dto.assignedTo with
  | none => trivial
  | some a => exact (notification_silent _ _ _ _).bind fun _ => trivial

theorem createTask_signed (w p u : String) (dto : CreateTaskDto) :
    OnlyIssues (Signed (some u)) (PlatformTasks.createTask w p u dto) := by
  refine OnlyIssues.await (Silent.signed ⟨rfl, rfl⟩ _) ?_
  rintro (e | row)
  · trivial
  have hnotify := (notifyAssignee_silent dto).mono fun _ h => h.signed (some u)
  -- the row is there: the cache, both logs, the event and the assignee
  refine OnlyIssues.await (Silent.signed ⟨rfl, rfl⟩ _) fun _ => ?_
  refine OnlyIssues.await (signed_auditLog _ u _) fun _ => ?_
  refine OnlyIssues.await (signed_activityLog w _ _ _ u) fun _ => ?_
  refine OnlyIssues.await (Silent.signed ⟨rfl, rfl⟩ _) fun _ => ?_
  exact hnotify.bind fun _ => trivial

theorem getTasks_silent (w p : String) (q : QueryTaskDto) :
    OnlyIssues Silent (PlatformTasks.getTasks w p q) := by
  refine OnlyIssues.await ⟨rfl, rfl⟩ ?_
  rintro (_ | cached)
  · refine OnlyIssues.await ⟨rfl, rfl⟩ fun page => ?_
    exact OnlyIssues.await ⟨rfl, rfl⟩ fun _ => trivial
  · trivial

theorem afterSave_signed (id w u : String) (dto : UpdateTaskDto) (t : LoadedTask)
    (saved : TaskEntity) : OnlyIssues (Signed (some u)) (afterSave id w u dto t saved) := by
  refine OnlyIssues.await (Silent.signed ⟨rfl, rfl⟩ _) fun _ => ?_
  refine OnlyIssues.await (Silent.signed ⟨rfl, rfl⟩ _) fun _ => ?_
  refine OnlyIssues.await (signed_auditLog _ u _) fun _ => ?_
  refine (announceUpdate_signed id w u _ _ _).bind fun _ => ?_
  exact OnlyIssues.await (Silent.signed ⟨rfl, rfl⟩ _) fun _ => trivial

theorem updateTask_signed (id w u : String) (dto : UpdateTaskDto) :
    OnlyIssues (Signed (some u)) (PlatformTasks.updateTask id w u dto) := by
  refine ((findById_silent id w).mono fun _ h => h.signed _).bind fun t => ?_
  unfold updateLoaded
  by_cases hversion : versionMismatch dto.version t.row.version = true
  · rw [if_pos hversion]
    trivial
  · rw [if_neg hversion]
    refine ((completionTime_silent dto t).mono fun _ h => h.signed _).bind fun completedAt => ?_
    refine OnlyIssues.await (Silent.signed ⟨rfl, rfl⟩ _) ?_
    rintro (e | saved)
    · trivial
    · exact afterSave_signed id w u dto t saved

theorem deleteTask_signed (id w u : String) :
    OnlyIssues (Signed (some u)) (PlatformTasks.deleteTask id w u) := by
  refine ((findById_silent id w).mono fun _ h => h.signed _).bind fun t => ?_
  refine OnlyIssues.await (Silent.signed ⟨rfl, rfl⟩ _) fun _ => ?_
  refine OnlyIssues.await (Silent.signed ⟨rfl, rfl⟩ _) fun _ => ?_
  refine OnlyIssues.await (Silent.signed ⟨rfl, rfl⟩ _) fun _ => ?_
  refine OnlyIssues.await (signed_auditLog _ u _) fun _ => ?_
  refine OnlyIssues.await (signed_activityLog w _ _ _ u) fun _ => ?_
  refine OnlyIssues.await (Silent.signed ⟨rfl, rfl⟩ _) fun now => ?_
  exact OnlyIssues.await (Silent.signed ⟨rfl, rfl⟩ _) fun _ => trivial

/-- **Every entry of a call names its user.** -/
theorem call_signed (c : TaskCall) : OnlyIssues (Signed (userOf c)) c.prog := by
  cases c with
  | createTask w p u dto => exact createTask_signed w p u dto
  | getTasks w p q => exact (getTasks_silent w p q).mono fun _ h => h.signed _
  | findById id w =>
      exact ((findById_silent id w).mono fun _ h => h.signed _).bind fun _ => trivial
  | updateTask id w u dto => exact updateTask_signed id w u dto
  | deleteTask id w u => exact deleteTask_signed id w u

/-! ## No entry comes before its write -/

/-- A write of the tasks that went through. -/
def Written : (op : TaskOp) → op.Res → Prop
  | .insert _, .ok _ => True
  | .save _, .ok _ => True
  | .softRemove _, _ => True
  | _, _ => False

theorem call_writes_first (c : TaskCall) : OnlyUntil Silent Written c.prog := by
  cases c with
  | createTask w p u dto =>
      refine ⟨⟨rfl, rfl⟩, ?_⟩
      rintro (e | row)
      · exact Or.inr trivial
      · exact Or.inl trivial
  | getTasks w p q =>
      refine ⟨⟨rfl, rfl⟩, ?_⟩
      rintro (_ | v)
      · exact Or.inr ⟨⟨rfl, rfl⟩, fun _ => Or.inr ⟨⟨rfl, rfl⟩, fun _ =>
          Or.inr trivial⟩⟩
      · exact Or.inr trivial
  | findById id w => exact (findById_silent id w).until_bind fun _ => trivial
  | updateTask id w u dto =>
      refine (findById_silent id w).until_bind fun t => ?_
      unfold updateLoaded
      by_cases hv : versionMismatch dto.version t.row.version = true
      · rw [if_pos hv]
        trivial
      · rw [if_neg hv]
        refine (completionTime_silent dto t).until_bind fun c => ⟨⟨rfl, rfl⟩, ?_⟩
        rintro (e | saved)
        · exact Or.inr trivial
        · exact Or.inl trivial
  | deleteTask id w u =>
      exact (findById_silent id w).until_bind fun t => ⟨⟨rfl, rfl⟩, fun _ => Or.inl trivial⟩

/-! ## What a write changes -/

section Writes

variable {pg : PostgresText}

theorem lookup_append_ne {l : List Task} {row : Task} {id : String} (h : row.id ≠ id) :
    lookup Task.id id (l ++ [row]) = lookup Task.id id l := by
  cases hl : lookup Task.id id l with
  | none => rw [lookup_append_new hl, if_neg h]
  | some r => exact lookup_append_some hl

/-- **Who changes a row logs it.** -/
theorem exec_lookup {ω : Choice} {op : TaskOp} {k : op.Res → TaskProg TaskReply} {s : TaskState}
    (hinv : Consistent s.db s.cache) (hduty : Duty s (.await op k))
    (hlogged : Logged (.await op k)) (id : String) :
    lookup Task.id id (exec pg ω op s).1.db.tasks = lookup Task.id id s.db.tasks ∨
      ∃ u r, lookup Task.id id (exec pg ω op s).1.db.tasks = some r ∧
        WillLog u r.workspaceId id (k (exec pg ω op s).2) := by
  have heffect := exec_effect pg ω op s
  generalize (exec pg ω op s).1.db = db, (exec pg ω op s).2 = answer at heffect ⊢
  cases heffect with
  | same op notifications answer kept => exact Or.inl rfl
  | @insert n row wanted new keys named =>
      by_cases hid : row.id = id
      · have hplace : row.workspaceId = n.workspaceId := by
          rw [wanted]
          rfl
        have hlog := hlogged row
        rw [hid, ← hplace] at hlog
        refine Or.inr ⟨n.createdBy, row, ?_, hlog⟩
        rw [lookup_append_new (hid ▸ new), if_pos hid]
      · exact Or.inl (lookup_append_ne hid)
  | reinsert wanted gone keys =>
      -- the row of a loaded task is never gone
      obtain ⟨-, ⟨r, hr, hre⟩, -⟩ := hduty
      obtain ⟨hne, -, -⟩ := toRow_some wanted
      exact absurd (hre.id.trans hne.id.symm) (lookup_eq_none.mp gone r hr)
  | @update e saved old new wanted stored writes keys =>
      obtain ⟨hne, -, -⟩ := toRow_some wanted
      by_cases hid : new.id = id
      · obtain ⟨u, hlog⟩ := hlogged
        have hlog' := hlog saved
        rw [← hne.id, ← hne.workspaceId, hid] at hlog'
        refine Or.inr ⟨u, updateRow (s.now + ω.elapsed) old new, ?_, hlog'⟩
        have hstored : lookup Task.id (updateRow (s.now + ω.elapsed) old new).id s.db.tasks
            = some old := stored
        rw [← hid]
        exact lookup_replace_self hstored
      · exact Or.inl (lookup_replace_ne fun h => hid h.symm)
  | @softRemove t row stored =>
      obtain ⟨⟨r, hr, hre⟩, -⟩ := hduty
      obtain ⟨hmem, hrow⟩ := lookup_mem stored
      have heq : r = row := hinv.ids.eq_of_key hr hmem (hre.id.trans hrow.symm)
      subst heq
      by_cases hid : t.row.id = id
      · obtain ⟨u, hlog⟩ := hlogged
        rw [← hre.workspaceId, hid] at hlog
        refine Or.inr ⟨u, markDeleted (s.now + ω.elapsed) r, ?_, hlog⟩
        have hself : (markDeleted (s.now + ω.elapsed) r).id = id := hrow.trans hid
        rw [← hself]
        exact lookup_replace_self (hself.trans hid.symm ▸ stored)
      · have hother : (markDeleted (s.now + ω.elapsed) r).id = t.row.id := hrow
        exact Or.inl (lookup_replace_ne fun h => hid (hother.symm.trans h.symm))

end Writes

/-! ## Runs -/

section Runs

variable (pg : PostgresText)

/-- What a call issues is signed with its user. -/
theorem run_signed {s : TaskState} {calls : List TaskCall} {l : List (Nat × Choice)} {i : Nat}
    {op : TaskOp} {k : op.Res → TaskProg TaskReply}
    (hi : (run (exec pg) (pool s calls) l).calls[i]? = some (.await op k)) :
    ∃ c, calls[i]? = some c ∧ Signed (userOf c) op := by
  obtain ⟨p, hp⟩ := run_calls_origin (exec pg) hi
  obtain ⟨c, hc, rfl⟩ := Option.map_eq_some_iff.mp
    ((List.getElem?_map ..).symm.trans hp)
  have hrest := keeps_run (exec pg) (I := OnlyIssues (Signed (userOf c)))
    (fun _ _ h r => h.2 r) hp (call_signed c) hi
  exact ⟨c, hc, hrest.1⟩

/-- **Entries follow writes.**  Whenever a call of a run makes an entry in one of the logs,
    the entry names the user who makes the call, and a write of this call has gone through
    before. -/
theorem entries_follow_writes (s : TaskState) (calls : List TaskCall) (l : List (Nat × Choice))
    (i : Nat) (op : TaskOp) (k : op.Res → TaskProg TaskReply)
    (hi : (run (exec pg) (pool s calls) l).calls[i]? = some (.await op k)) (e : LogEntry)
    (he : auditEntry op = some e ∨ activityEntry op = some e) :
    calls[i]?.bind userOf = some e.userId ∧
      ∃ l₁ ω l₂ write k', l = l₁ ++ (i, ω) :: l₂ ∧
        (run (exec pg) (pool s calls) l₁).calls[i]? = some (.await write k') ∧
        Written write (exec pg ω write (run (exec pg) (pool s calls) l₁).shared).2 := by
  obtain ⟨c, hc, hsigned⟩ := run_signed pg hi
  have hp : (pool s calls).calls[i]? = some c.prog :=
    (List.getElem?_map ..).trans (congrArg (Option.map TaskCall.prog) hc)
  refine ⟨?_, (call_writes_first c).answered hp hi ?_⟩
  · rw [hc]
    exact hsigned e he
  · rintro ⟨haudit, hactivity⟩
    rcases he with he | he
    · rw [haudit] at he
      cases he
    · rw [hactivity] at he
      cases he

/-- Alice creates a task in the office. -/
def creation : List TaskCall := [.createTask "w" "p" "a" { title := "Plan" }]

/-- Before her entry in the audit log the row has been inserted. -/
theorem creation_comes_first :
    creation[0]?.bind userOf = some "a" ∧
      ∃ l₁ ω l₂ write k', turns [0, 0] = l₁ ++ (0, ω) :: l₂ ∧
        (run (exec plainText) (pool office creation) l₁).calls[0]? = some (.await write k') ∧
        Written write
          (exec plainText ω write (run (exec plainText) (pool office creation) l₁).shared).2 :=
  entries_follow_writes plainText office creation (turns [0, 0]) 0 _ _ rfl
    ⟨"TASK_CREATE", "a", "w", "1"⟩ (Or.inl rfl)

/-- **Changes are logged.**  In every interleaving of task calls: if a step changes a row of
    the tasks, then the call that makes the step goes on, before it returns or throws, to an
    entry in the audit log and one in the activity log, both of which name the task, the
    workspace that it is in and the user who makes the call. -/
theorem changes_are_logged (s : TaskState) (hs : Reachable pg s) (calls : List TaskCall)
    (earlier : List (Nat × Choice)) (i : Nat) (ω : Choice) (later : List (Nat × Choice))
    (hended : ∀ p, (run (exec pg) (pool s calls) (earlier ++ (i, ω) :: later)).calls[i]?
      = some p → p.finished = true)
    (id : String)
    (hchange : lookup Task.id id
        (run (exec pg) (pool s calls) (earlier ++ [(i, ω)])).shared.db.tasks
      ≠ lookup Task.id id (run (exec pg) (pool s calls) earlier).shared.db.tasks) :
    ∃ u r, calls[i]?.bind userOf = some u ∧
      lookup Task.id id
        (run (exec pg) (pool s calls) (earlier ++ [(i, ω)])).shared.db.tasks = some r ∧
      ∀ log ∈ [auditEntry, activityEntry], ∃ between ω' rest,
        later = between ++ (i, ω') :: rest ∧
        ∃ op k, (run (exec pg) (pool s calls) (earlier ++ (i, ω) :: between)).calls[i]?
            = some (.await op k) ∧
          ∃ action, log op = some ⟨action, u, r.workspaceId, id⟩ := by
  have hsigned : ∀ l op k, (run (exec pg) (pool s calls) l).calls[i]? = some (.await op k) →
      ∀ e, auditEntry op = some e ∨ activityEntry op = some e →
        calls[i]?.bind userOf = some e.userId := by
    intro l op k hi e he
    obtain ⟨c, hc, hsigned⟩ := run_signed pg hi
    rw [hc]
    exact hsigned e he
  have hone : run (exec pg) (pool s calls) (earlier ++ [(i, ω)])
      = step (exec pg) (run (exec pg) (pool s calls) earlier) i ω := by
    rw [run_append]
    rfl
  rw [hone] at hchange ⊢
  rcases step_cases (exec pg) (run (exec pg) (pool s calls) earlier) i ω with
    h0 | ⟨op, k, hi, h0⟩
  · rw [h0] at hchange
    exact absurd rfl hchange
  · obtain ⟨hinv, hduty, hlogged⟩ :=
      Owed.at_step pg (logged_owed.orderly pg (hs.consistent pg) calls) hi
    have hself := step_calls_self (exec pg) hi ω
    rw [h0] at hchange ⊢
    obtain ⟨u, r, hr, haudit, hactivity⟩ :=
      (exec_lookup hinv hduty hlogged id).resolve_left hchange
    -- what the rest of the call will do, it has done in the end
    have hissued : ∀ log, WillIssueIf (fun _ _ => True) (Names log u r.workspaceId id)
          (k (exec pg ω op (run (exec pg) (pool s calls) earlier).shared).2) →
        ∃ between ω' rest, later = between ++ (i, ω') :: rest ∧
          ∃ op k, (run (exec pg) (pool s calls) (earlier ++ (i, ω) :: between)).calls[i]?
              = some (.await op k) ∧
            ∃ action, log op = some ⟨action, u, r.workspaceId, id⟩ := by
      intro log hlog
      have hall := meets_of_forall (exec pg) (D := OnOp fun _ _ => True)
        (fun _ _ _ _ _ => trivial) (step (exec pg) (run (exec pg) (pool s calls) earlier) i ω)
        later
      have hrest : ∀ q, (run (exec pg)
          (step (exec pg) (run (exec pg) (pool s calls) earlier) i ω) later).calls[i]? = some q →
          q.finished = true := by
        intro q hq
        refine hended q ?_
        rw [run_append]
        exact hq
      obtain ⟨between, ω', rest, hsplit, op', k', hop, hnames⟩ :=
        WillIssueIf.issued (fun _ _ _ _ => trivial) hself hlog hall hrest
      refine ⟨between, ω', rest, hsplit, op', k', ?_, hnames⟩
      rw [run_append]
      exact hop
    refine ⟨u, r, ?_, hr, ?_⟩
    · obtain ⟨between, ω', rest, -, op', k', hop, action, hentry⟩ := hissued _ haudit
      exact hsigned _ op' k' hop _ (Or.inl hentry)
    · intro log hlog
      rcases List.mem_cons.mp hlog with rfl | hlog
      · exact hissued _ haudit
      · rw [List.mem_singleton.mp hlog]
        exact hissued _ hactivity

end Runs

/-- The row of Alice's task is new, and both logs are told. -/
theorem creation_is_logged :
    ∃ u r, creation[0]?.bind userOf = some u ∧
      lookup Task.id "1" (run (exec plainText) (pool office creation)
        ([] ++ [(0, ⟨0, [], "1"⟩)])).shared.db.tasks = some r ∧
      ∀ log ∈ [auditEntry, activityEntry], ∃ between ω' rest,
        turns [0, 0, 0, 0] = between ++ (0, ω') :: rest ∧
        ∃ op k, (run (exec plainText) (pool office creation)
            ([] ++ (0, ⟨0, [], "1"⟩) :: between)).calls[0]? = some (.await op k) ∧
          ∃ action, log op = some ⟨action, u, r.workspaceId, "1"⟩ := by
  refine changes_are_logged plainText office
    ⟨office, [], [], ⟨rfl, fun _ => rfl⟩, rfl⟩ creation
    [] 0 ⟨0, [], "1"⟩ (turns [0, 0, 0, 0]) ?_ "1" ?_
  · intro p hp
    cases hp
    rfl
  · intro hsame
    cases hsame

end PlatformAudit
