import TaskPlatform.ReminderLoss
import TaskPlatform.ReminderWorker

/-! # How often a reminder job notifies

    An attempt that fails after its notification has been stored is run again from the
    top, and nothing tells the next one that the user has been notified
    (`notified_twice`).  Each attempt notifies at most once, and one that returns has
    left the reminder sent (`reminder_job_notifies`). -/

namespace PlatformNotifications

open AsyncProgram PlatformEntities
open PlatformReminders (Reminder ReminderStatus ReminderJob Tick Milestone)

/-! ## One attempt -/

/-- From `s` to `s'` the rows were stored and the messages sent: at most one row, of the
    user and the type, and nothing else than it to the room of the user. -/
structure Posted (userId type : String) (s s' : WorkerState) (rows : List Notification)
    (pushed : List (String × Notification)) : Prop where
  notifications : s'.notifications = s.notifications ++ rows
  sent : s'.sent = s.sent ++ pushed
  one : rows.length ≤ 1
  kind : ∀ n ∈ rows, n.userId = userId ∧ n.type = type
  room : pushed = [] ∨ pushed = rows.map fun n => (userId, n)

theorem Posted.nothing (userId type : String) (s : WorkerState) :
    Posted userId type s s [] [] :=
  ⟨(List.append_nil _).symm, (List.append_nil _).symm, Nat.zero_le 1, nofun, Or.inl rfl⟩

/-- What neither table nor rooms see does not matter. -/
theorem Posted.congr {userId type : String} {s s' s'' : WorkerState}
    {rows : List Notification} {pushed : List (String × Notification)}
    (h : Posted userId type s s' rows pushed) (hn : s''.notifications = s'.notifications)
    (hs : s''.sent = s'.sent) : Posted userId type s s'' rows pushed :=
  ⟨hn.trans h.notifications, hs.trans h.sent, h.one, h.kind, h.room⟩

/-- A call is carried out and answered, or carried out, or neither. -/
theorem settle_cases {α : Type} (ω : Tick) (s s' : WorkerState) (a : α) :
    settle ω s s' a = (s', .ok a) ∨ settle ω s s' a = (s', .error .callFailed) ∨
      settle ω s s' a = (s, .error .callFailed) := by
  cases hf : ω.fault with
  | none => exact Or.inl (by rw [settle, hf])
  | some f =>
      cases f with
      | lost => exact Or.inr (Or.inl (by rw [settle, hf]))
      | refused => exact Or.inr (Or.inr (by rw [settle, hf]))

theorem insertNotification_cases (ω : Tick) (s : WorkerState) (row : Notification) :
    let s' := { s with notifications := s.notifications ++ [row] }
    insertNotification ω s row = (s', .ok row) ∨
      insertNotification ω s row = (s', .error .callFailed) ∨
      insertNotification ω s row = (s, .error .callFailed) := by
  intro s'
  by_cases hused : (s.notifications.any fun n => n.id = row.id) = true
  · exact Or.inr (Or.inr (if_pos hused))
  · rw [insertNotification, if_neg hused]
    exact settle_cases ω s s' row

/-- What a call to a queue does is not seen, whether it is answered or throws. -/
theorem ensures_settle {β : Type} {Q : Except JobError β → WorkerState → Prop} {ω : Tick}
    {s s' : WorkerState} {f : Unit → WorkerProg β} (hthrow : Q (.error .callFailed) s)
    (hthrow' : Q (.error .callFailed) s') (hnext : Ensures workerExec Q (f ()) s') :
    Ensures workerExec Q (Prog.orThrow (settle ω s s' ()).2 >>= f) (settle ω s s' ()).1 := by
  rcases settle_cases ω s s' () with h | h | h
  · rw [h]
    exact hnext
  · rw [h]
    exact hthrow'
  · rw [h]
    exact hthrow

theorem createAndSendNotification_posts (userId type title message : String)
    (s : WorkerState) :
    Ensures workerExec (fun out s' => ∃ rows pushed, Posted userId type s s' rows pushed ∧
      s'.reminders = s.reminders ∧
      ∀ n, out = .ok n → rows = [n] ∧ pushed = [(userId, n)])
      (createAndSendNotification userId type title message) s := by
  refine ensures_catching.mpr ?_
  intro ω₁
  let row : Notification := ⟨ω₁.newId, userId, type, title, message, false⟩
  show Ensures workerExec _ (Prog.orThrow (insertNotification ω₁ s row).2 >>= _)
    (insertNotification ω₁ s row).1
  have hstored : ∀ s' : WorkerState, s'.notifications = s.notifications ++ [row] →
      s'.sent = s.sent → Posted userId type s s' [row] [] := by
    intro s' hn hs
    refine ⟨hn, hs.trans (List.append_nil _).symm, Nat.le_refl 1, ?_, Or.inl rfl⟩
    intro n hmem
    rw [List.mem_singleton.mp hmem]
    exact ⟨rfl, rfl⟩
  have hsent : ∀ s' : WorkerState, s'.notifications = s.notifications ++ [row] →
      s'.sent = s.sent ++ [(userId, row)] →
      Posted userId type s s' [row] [(userId, row)] := by
    intro s' hn hs
    exact ⟨hn, hs, Nat.le_refl 1, (hstored { s' with sent := s.sent } hn rfl).kind, Or.inr rfl⟩
  rcases insertNotification_cases ω₁ s row with h | h | h
  · rw [h]
    intro ω₂ ω₃
    -- from here on the row is stored and the message sent
    refine ensures_settle ?_ ?_ ?_
    · exact ⟨_, _, hsent _ rfl rfl, rfl, nofun⟩
    · exact ⟨_, _, hsent _ rfl rfl, rfl, nofun⟩
    · intro ω₄
      refine ensures_settle ?_ ?_ ?_
      · exact ⟨_, _, hsent _ rfl rfl, rfl, nofun⟩
      · exact ⟨_, _, hsent _ rfl rfl, rfl, nofun⟩
      · refine ⟨_, _, hsent _ rfl rfl, rfl, ?_⟩
        intro n hn
        cases hn
        exact ⟨rfl, rfl⟩
  · rw [h]
    exact ⟨_, _, hstored _ rfl rfl, rfl, nofun⟩
  · rw [h]
    exact ⟨_, _, .nothing userId type s, rfl, nofun⟩

/-- What an attempt has done when it ends. -/
structure Attempted (job : ReminderJob) (s : WorkerState) (out : Except JobError Unit)
    (s' : WorkerState) (rows : List Notification) (pushed : List (String × Notification)) :
    Prop where
  posted : Posted job.userId "DUE_REMINDER" s s' rows pushed
  notified : out = .ok () → rows.length = 1 ∧ pushed = rows.map fun n => (job.userId, n)
  status : out = .ok () → ∀ r ∈ s'.reminders, r.id = job.reminderId → r.status = .sent

theorem Attempted.failed {job : ReminderJob} {s s' : WorkerState} {e : JobError}
    {rows : List Notification} {pushed : List (String × Notification)}
    (h : Posted job.userId "DUE_REMINDER" s s' rows pushed) :
    Attempted job s (.error e) s' rows pushed :=
  ⟨h, nofun, nofun⟩

theorem mark_status (s : WorkerState) (id : String) (status : ReminderStatus) :
    ∀ r ∈ (s.mark id status).reminders, r.id = id → r.status = status := by
  intro r hr hid
  obtain ⟨r₀, -, rfl⟩ := List.mem_map.mp hr
  by_cases h : r₀.id = id
  · rw [if_pos h]
  · rw [if_neg h] at hid
    exact absurd hid h

theorem deliverReminder_attempts (job : ReminderJob) (s : WorkerState) :
    Ensures workerExec (fun out s' => ∃ rows pushed, Attempted job s out s' rows pushed)
      (deliverReminder job) s := by
  intro ω₁
  let found := s.tasks.find? fun t => t.id = job.taskId && decide (t.deletedAt = none)
  show Ensures workerExec _ (Prog.orThrow (settle ω₁ s s found).2 >>= _)
    (settle ω₁ s s found).1
  have hnone : ∀ e, ∃ rows pushed, Attempted job s (.error e) s rows pushed :=
    fun e => ⟨_, _, .failed (.nothing job.userId _ s)⟩
  rcases settle_cases ω₁ s s found with h | h | h
  · rw [h]
    cases found with
    | none => exact hnone _
    | some task =>
        show Ensures workerExec _
          (createAndSendNotification job.userId "DUE_REMINDER" _ _ >>= _) s
        refine ensures_bind.mpr ?_
        refine (createAndSendNotification_posts _ _ _ _ s).mono ?_
        rintro (e | n) s₁ ⟨rows, pushed, hposted, -, hok⟩
        · exact ⟨rows, pushed, .failed hposted⟩
        · obtain ⟨rfl, rfl⟩ := hok n rfl
          intro ω₂
          have hlast : ∀ s' : WorkerState, s'.notifications = s₁.notifications →
              s'.sent = s₁.sent → Posted job.userId "DUE_REMINDER" s s' [n] [(job.userId, n)] :=
            fun s' => hposted.congr
          rcases settle_cases ω₂ s₁ (s₁.mark job.reminderId .sent) () with h | h | h
          · show Ensures workerExec _ (Prog.orThrow (settle ω₂ s₁ _ ()).2)
              (settle ω₂ s₁ _ ()).1
            rw [h]
            exact ⟨_, _, hlast _ rfl rfl, fun _ => ⟨rfl, rfl⟩,
              fun _ => mark_status s₁ job.reminderId .sent⟩
          · show Ensures workerExec _ (Prog.orThrow (settle ω₂ s₁ _ ()).2)
              (settle ω₂ s₁ _ ()).1
            rw [h]
            exact ⟨_, _, .failed (hlast _ rfl rfl)⟩
          · show Ensures workerExec _ (Prog.orThrow (settle ω₂ s₁ _ ()).2)
              (settle ω₂ s₁ _ ()).1
            rw [h]
            exact ⟨_, _, .failed (hlast _ rfl rfl)⟩
  · rw [h]
    exact hnone _
  · rw [h]
    exact hnone _

/-- **One attempt.** -/
theorem process_attempts (job : ReminderJob) (s : WorkerState) :
    Ensures workerExec (fun out s' => ∃ rows pushed, Attempted job s out s' rows pushed)
      (process job) s := by
  refine ensures_catching.mpr ((deliverReminder_attempts job s).mono ?_)
  rintro (e | _) s' ⟨rows, pushed, h⟩
  · -- the handler writes the status and throws in any case
    intro ω
    refine ensures_settle ?_ ?_ ?_
    · exact ⟨rows, pushed, .failed h.posted⟩
    · exact ⟨rows, pushed, .failed (h.posted.congr rfl rfl)⟩
    · exact ⟨rows, pushed, .failed (h.posted.congr rfl rfl)⟩
  · exact ⟨rows, pushed, h⟩

/-! ## All attempts of a job -/

/-- The attempt has stored a notification. -/
def Attempt.stores (a : Attempt) : Bool :=
  a.after.notifications.length ≠ a.before.notifications.length

/-- What the attempts of a job have added to the notifications and sent to the rooms. -/
structure Notified (job : ReminderJob) (s : WorkerState) (attempts : List Attempt)
    (rows : List Notification) (pushed : List (String × Notification)) : Prop where
  notifications : (afterAttempts s attempts).notifications = s.notifications ++ rows
  sent : (afterAttempts s attempts).sent = s.sent ++ pushed
  kind : ∀ n ∈ rows, n.userId = job.userId ∧ n.type = "DUE_REMINDER"
  room : ∀ p ∈ pushed, p.1 = job.userId ∧ p.2 ∈ rows
  pushes : pushed.length ≤ rows.length
  stores : rows.length = attempts.countP Attempt.stores

theorem afterAttempts_cons (s : WorkerState) (a : Attempt) (rest : List Attempt) :
    afterAttempts s (a :: rest) = afterAttempts a.after rest := by
  cases rest with
  | nil => rfl
  | cons a' rest =>
      show ((a :: a' :: rest).getLast?.map Attempt.after).getD s
        = ((a' :: rest).getLast?.map Attempt.after).getD a.after
      rw [List.getLast?_cons_cons, List.getLast?_cons]
      rfl

theorem Attempted.stores_eq {job : ReminderJob} {s s' : WorkerState}
    {out : Except JobError Unit} {rows : List Notification}
    {pushed : List (String × Notification)} (h : Attempted job s out s' rows pushed) :
    (if (⟨s, s', out⟩ : Attempt).stores then 1 else 0) = rows.length := by
  have hlength : s'.notifications.length = s.notifications.length + rows.length := by
    rw [h.posted.notifications, List.length_append]
  have hone := h.posted.one
  by_cases hrows : rows.length = 0
  · simp [Attempt.stores, hlength, hrows]
  · simp [Attempt.stores, hlength, hrows]
    omega

/-- The first attempt and then the others. -/
theorem Notified.cons {job : ReminderJob} {s s' : WorkerState} {out : Except JobError Unit}
    {rows rows' : List Notification} {pushed pushed' : List (String × Notification)}
    (h : Attempted job s out s' rows pushed) {rest : List Attempt}
    (hrest : Notified job s' rest rows' pushed') :
    Notified job s (⟨s, s', out⟩ :: rest) (rows ++ rows') (pushed ++ pushed') := by
  have hroom : ∀ p ∈ pushed, p.1 = job.userId ∧ p.2 ∈ rows := by
    intro p hp
    rcases h.posted.room with hnone | hall
    · rw [hnone] at hp
      exact absurd hp List.not_mem_nil
    · rw [hall] at hp
      obtain ⟨n, hn, rfl⟩ := List.mem_map.mp hp
      exact ⟨rfl, hn⟩
  have hpushes : pushed.length ≤ rows.length := by
    rcases h.posted.room with hnone | hall
    · rw [hnone]
      exact Nat.zero_le _
    · exact Nat.le_of_eq (by rw [hall, List.length_map])
  refine ⟨?_, ?_, ?_, ?_, ?_, ?_⟩
  · rw [afterAttempts_cons, hrest.notifications, h.posted.notifications, List.append_assoc]
  · rw [afterAttempts_cons, hrest.sent, h.posted.sent, List.append_assoc]
  · intro n hn
    rcases List.mem_append.mp hn with hn | hn
    · exact h.posted.kind n hn
    · exact hrest.kind n hn
  · intro p hp
    rcases List.mem_append.mp hp with hp | hp
    · exact ⟨(hroom p hp).1, List.mem_append_left _ (hroom p hp).2⟩
    · exact ⟨(hrest.room p hp).1, List.mem_append_right _ (hrest.room p hp).2⟩
  · rw [List.length_append, List.length_append]
    exact Nat.add_le_add hpushes hrest.pushes
  · rw [List.length_append, List.countP_cons, h.stores_eq, hrest.stores]
    exact Nat.add_comm ..

theorem Notified.none (job : ReminderJob) (s : WorkerState) : Notified job s [] [] [] :=
  ⟨(List.append_nil _).symm, (List.append_nil _).symm, nofun, nofun, Nat.le_refl 0, rfl⟩

theorem runJob_notifies (job : ReminderJob) (worlds : List (Nat → Tick)) (s : WorkerState) :
    (∃ rows pushed, Notified job s (runJob job worlds s) rows pushed) ∧
    (runJob job worlds s).length ≤ worlds.length ∧
    ∀ a ∈ runJob job worlds s, ∃ rows pushed,
      Attempted job a.before a.outcome a.after rows pushed := by
  induction worlds generalizing s with
  | nil => exact ⟨⟨_, _, .none job s⟩, Nat.le_refl 0, nofun⟩
  | cons world rest ih =>
      obtain ⟨rows, pushed, hfirst⟩ :=
        (ensures_iff workerExec (process job) s).mp (process_attempts job s) world
      obtain ⟨⟨s', out⟩, hsolo⟩ : ∃ last, solo workerExec world (process job) s = last :=
        ⟨_, rfl⟩
      rw [hsolo] at hfirst
      cases out with
      | ok u =>
          have hrun : runJob job (world :: rest) s = [⟨s, s', .ok u⟩] := by
            simp only [runJob, hsolo]
          rw [hrun]
          refine ⟨⟨_, _, .cons hfirst (.none job _)⟩, Nat.succ_le_succ (Nat.zero_le _), ?_⟩
          intro a ha
          rw [List.mem_singleton.mp ha]
          exact ⟨rows, pushed, hfirst⟩
      | error e =>
          have hrun : runJob job (world :: rest) s
              = ⟨s, s', .error e⟩ :: runJob job rest s' := by
            simp only [runJob, hsolo]
          obtain ⟨⟨rows', pushed', hrest⟩, hlength, heach⟩ := ih s'
          rw [hrun]
          refine ⟨⟨_, _, .cons hfirst hrest⟩, Nat.succ_le_succ hlength, ?_⟩
          intro a ha
          rcases List.mem_cons.mp ha with rfl | ha
          · exact ⟨rows, pushed, hfirst⟩
          · exact heach a ha

/-- Where no attempt stores one but the last, none is stored twice. -/
theorem countP_le_one_of_dropLast {α : Type} {f : α → Bool} {l : List α}
    (h : ∀ a ∈ l.dropLast, f a = false) : l.countP f ≤ 1 := by
  by_cases hl : l = []
  · rw [hl]
    exact Nat.zero_le 1
  · have hzero : l.dropLast.countP f = 0 := by
      rw [List.countP_eq_zero]
      intro a ha
      rw [h a ha]
      exact Bool.false_ne_true
    calc l.countP f = (l.dropLast ++ [l.getLast hl]).countP f := by
          rw [List.dropLast_concat_getLast]
      _ = [l.getLast hl].countP f := by rw [List.countP_append, hzero, Nat.zero_add]
      _ ≤ 1 := List.countP_le_length

/-- **Each attempt at most once.**  Whatever fails in whichever of its attempts, each of
    them stores at most one notification, for the user of the job and of the type
    `DUE_REMINDER`, and sends nothing but that to the room of the user.  The job stores as
    many as it has attempts that store one: none twice, unless an attempt that stored one
    was run again.  If the last attempt returns, the reminder is marked as sent. -/
theorem reminder_job_notifies (job : ReminderJob) (worlds : List (Nat → Tick))
    (s : WorkerState) :
    let attempts := runJob job worlds s
    attempts.length ≤ worlds.length ∧
    (∀ a ∈ attempts, ∃ rows pushed,
      Posted job.userId "DUE_REMINDER" a.before a.after rows pushed) ∧
    (∃ rows pushed, Notified job s attempts rows pushed ∧
      ((∀ a ∈ attempts.dropLast, a.stores = false) → rows.length ≤ 1 ∧
        pushed.length ≤ 1)) ∧
    ∀ a, attempts.getLast? = some a → a.outcome = .ok () →
      ∀ r ∈ (afterAttempts s attempts).reminders, r.id = job.reminderId →
        r.status = .sent := by
  intro attempts
  obtain ⟨⟨rows, pushed, h⟩, hlength, heach⟩ := runJob_notifies job worlds s
  refine ⟨hlength, ?_, ⟨rows, pushed, h, ?_⟩, ?_⟩
  · intro a ha
    obtain ⟨rows, pushed, hattempted⟩ := heach a ha
    exact ⟨rows, pushed, hattempted.posted⟩
  · intro hagain
    have hone : rows.length ≤ 1 := by
      rw [h.stores]
      exact countP_le_one_of_dropLast hagain
    exact ⟨hone, Nat.le_trans h.pushes hone⟩
  · intro a ha hok
    have hafter : afterAttempts s attempts = a.after := by
      show (attempts.getLast?.map Attempt.after).getD s = _
      rw [ha]
      rfl
    obtain ⟨rows, pushed, hattempted⟩ := heach a (List.mem_of_getLast? ha)
    rw [hafter]
    exact hattempted.status hok

/-! ## A job whose push notification fails once -/

/-- The reminder of a task that is due in a day. -/
def dayAheadJob : ReminderJob := ⟨"r", "1", "a", "24 hours", 24 * PlatformReminders.hour⟩

/-- A pending reminder and its task. -/
def beforeJob : WorkerState where
  tasks := PlatformReminders.dayAhead.tasks
  reminders := [⟨"r", "1", 24 * PlatformReminders.hour, .pending⟩]
  notifications := []
  sent := []
  pushJobs := []
  emailJobs := []

/-- The first attempt stores the notification and sends it, but cannot queue the push
    notification; the second does it all over again. -/
theorem notified_twice :
    let attempts := runJob dayAheadJob
      [PlatformReminders.failingAt 3, fun n => PlatformReminders.calm (n + 100)] beforeJob
    let last := afterAttempts beforeJob attempts
    attempts.map Attempt.outcome = [.error .callFailed, .ok ()] ∧
      last.notifications.map (fun n => (n.userId, n.type))
        = [("a", "DUE_REMINDER"), ("a", "DUE_REMINDER")] ∧
      last.sent.map Prod.fst = ["a", "a"] := by
  decide

end PlatformNotifications
