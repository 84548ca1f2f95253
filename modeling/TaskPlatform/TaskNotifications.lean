import TaskPlatform.TaskUpdates

/-! # Whom `updateTask` notifies

    An update that completes a task is told to the creator, and one that hands the task
    to another user is told to that user.  The two stand in an `if` and its `else`, so an
    update that does both tells the creator at most, and the new assignee hears nothing.
    Nor does the first assignee of a task ever hear of it: whom to tell is read from the
    task after its save, and the save of a task that was loaded without an assignee takes
    the new one out of it (`update_notifies_iff`). -/

namespace PlatformTasks

open AsyncProgram Interleaving PlatformEntities RowTable

/-! ## Who is concerned -/

/-- The user whom the request names as another assignee than that of the task; no user
    has the empty id. -/
def newAssignee (db : Database) (dto : UpdateTaskDto) (task : LoadedTask) : Option String :=
  match dto.assignedTo with
  | .val x =>
      if task.row.assignedTo ≠ some x ∧ x ≠ "" ∧ ∃ u ∈ db.users, u.id = x then some x
      else none
  | _ => none

/-- The receiver of a notification and what it is about. -/
def addressed (n : Notification) : String × String := (n.userId, n.type)

/-- What an update by `actor` has to be told to whom. -/
def concerned (db : Database) (dto : UpdateTaskDto) (task : LoadedTask) (actor : String) :
    List (String × String) :=
  (if completes dto task = true ∧ task.row.createdBy ≠ actor then
      [(task.row.createdBy, "TASK_COMPLETED")]
    else []) ++
    (newAssignee db dto task).toList.map fun x => (x, "TASK_ASSIGNED")

/-- Between the two states these notifications were created, and no others. -/
def Notifies (s s' : TaskState) (l : List (String × String)) : Prop :=
  ∃ new, s'.db.notifications = s.db.notifications ++ new ∧ (new.map addressed).Perm l

theorem newAssignee_eq_some {db : Database} {dto : UpdateTaskDto} {task : LoadedTask}
    {x : String} :
    newAssignee db dto task = some x ↔ dto.assignedTo = .val x ∧
      task.row.assignedTo ≠ some x ∧ x ≠ "" ∧ ∃ u ∈ db.users, u.id = x := by
  unfold newAssignee
  cases dto.assignedTo with
  | undefined =>
      constructor
      · intro h
        cases h
      · rintro ⟨h, -⟩
        cases h
  | null =>
      constructor
      · intro h
        cases h
      · rintro ⟨h, -⟩
        cases h
  | val y =>
      dsimp only
      by_cases hy : task.row.assignedTo ≠ some y ∧ y ≠ "" ∧ ∃ u ∈ db.users, u.id = y
      · rw [if_pos hy]
        constructor
        · intro h
          cases h
          exact ⟨rfl, hy⟩
        · rintro ⟨h, -⟩
          cases h
          rfl
      · rw [if_neg hy]
        constructor
        · intro h
          cases h
        · rintro ⟨h, hx⟩
          cases h
          exact absurd hx hy

/-- The task was loaded with an assignee, and its row still holds that one. -/
def AssigneeStored (db : Database) (task : LoadedTask) : Prop :=
  ∃ u, task.assignee = some u ∧
    ∃ row, lookup Task.id task.row.id db.tasks = some row ∧ row.assignedTo = some u.id

/-- A new assignee hears of it, and otherwise nobody is taken for one. -/
structure AssignmentHeard (db : Database) (dto : UpdateTaskDto) (task : LoadedTask) :
    Prop where
  heard : newAssignee db dto task ≠ none →
    completes dto task = false ∧ AssigneeStored db task
  nobody : newAssignee db dto task = none → assigneeChanges dto task = true →
    completes dto task = true ∨ task.assignee = none ∨ AssigneeStored db task

/-! ## Who is told -/

/-- What `announceUpdate` tells to whom. -/
def told (task : TaskEntity) (actor : String) (completed changed : Bool) :
    List (String × String) :=
  if completed then
    if task.row.createdBy ≠ actor then [(task.row.createdBy, "TASK_COMPLETED")] else []
  else
    match changed, truthy task.row.assignedTo with
    | true, some assignee => [(assignee, "TASK_ASSIGNED")]
    | _, _ => []

/-- Between the two states the notifications `l` were created in this order, each for a
    user. -/
structure Posts (l : List (String × String)) (s s' : TaskState) : Prop where
  users : s'.db.users = s.db.users
  created : ∃ new, s'.db.notifications = s.db.notifications ++ new ∧ new.map addressed = l
  received : ∀ k ∈ l, ∃ u ∈ s.db.users, u.id = k.1

theorem Posts.nothing (s : TaskState) : Posts [] s s where
  users := rfl
  created := ⟨[], (List.append_nil _).symm, rfl⟩
  received := fun _ h => by cases h

/-- Only the database counts. -/
theorem Posts.of_db {l : List (String × String)} {s s₁ s' s₁' : TaskState}
    (h : Posts l s s') (hs : s₁.db = s.db) (hs' : s₁'.db = s'.db) : Posts l s₁ s₁' where
  users := by rw [hs, hs', h.users]
  created := by
    rw [hs, hs']
    exact h.created
  received := by
    rw [hs]
    exact h.received

theorem Posts.trans {l l' : List (String × String)} {s s' s'' : TaskState}
    (h : Posts l s s') (h' : Posts l' s' s'') : Posts (l ++ l') s s'' where
  users := h'.users.trans h.users
  created := by
    obtain ⟨new, hnew, rfl⟩ := h.created
    obtain ⟨new', hnew', rfl⟩ := h'.created
    refine ⟨new ++ new', ?_, List.map_append⟩
    rw [hnew', hnew, List.append_assoc]
  received := by
    intro k hk
    rcases List.mem_append.mp hk with hk | hk
    · exact h.received k hk
    · obtain ⟨u, hu, hid⟩ := h'.received k hk
      exact ⟨u, h.users ▸ hu, hid⟩

/-- Operations that leave the database alone. -/
def Mute : TaskOp → Prop
  | .insert _ => False
  | .save _ => False
  | .softRemove _ => False
  | .insertNotification _ _ _ _ => False
  | _ => True

section Runs

variable (pg : PostgresText)

theorem exec_mute (ω : Choice) (op : TaskOp) (s : TaskState) (h : Mute op) :
    (exec pg ω op s).1.db = s.db := by
  cases op with
  | insert n => exact absurd h not_false
  | save e => exact absurd h not_false
  | softRemove t => exact absurd h not_false
  | insertNotification u ty ti m => exact absurd h not_false
  | _ => rfl

/-- A save creates no notification. -/
theorem exec_save_posts (ω : Choice) (e : TaskEntity) (s : TaskState) :
    Posts [] s (exec pg ω (.save e) s).1 := by
  have hsame : (exec pg ω (.save e) s).1.db.notifications = s.db.notifications := by
    rcases exec_save_cases pg ω e s with ⟨err, he⟩ | ⟨db, saved, hsaved, he⟩
    · rw [he]
      rfl
    · rw [he]
      cases hsaved with
      | unchanged => rfl
      | inserted => rfl
      | updated => rfl
  refine ⟨(exec_static pg ω (.save e) s).1, ⟨[], ?_, rfl⟩, fun _ hk => by cases hk⟩
  rw [hsame, List.append_nil]

theorem mute_ensures {β : Type} {p : TaskProg β} (h : OnlyIssues Mute p) (s : TaskState) :
    Ensures (exec pg) (fun _ s' => s'.db = s.db) p s := by
  have hkeep : ∀ ω op s₁, Mute op → s₁.db = s.db → (exec pg ω op s₁).1.db = s.db :=
    fun ω op s₁ hop hs₁ => (exec_mute pg ω op s₁ hop).trans hs₁
  exact (h.ensures hkeep (returns_any p) rfl).mono fun r s' h => h.1

/-- Where the call returns, these notifications were created. -/
abbrev Tells {β : Type} (l : List (String × String)) (s : TaskState) :
    Except HttpError β → TaskState → Prop :=
  fun r s' => ∀ a, r = .ok a → Posts l s s'

/-- A part that tells nobody, before one that does. -/
theorem tells_after {α β : Type} {p : TaskProg α} {f : α → TaskProg β}
    {l : List (String × String)} {s : TaskState} (hp : OnlyIssues Mute p)
    (hf : ∀ a s₁, s₁.db = s.db → Ensures (exec pg) (Tells l s₁) (f a) s₁) :
    Ensures (exec pg) (Tells l s) (p >>= f) s := by
  rw [ensures_bind]
  refine (mute_ensures pg hp s).mono ?_
  intro r s₁ hs₁
  cases r with
  | error e => exact fun a ha => by cases ha
  | ok a =>
      refine (hf a s₁ hs₁).mono ?_
      intro r' s' h b hb
      exact (h b hb).of_db hs₁.symm rfl

/-- A part that tells nobody, after one that does. -/
theorem tells_before {α β : Type} {p : TaskProg α} {f : α → TaskProg β}
    {l : List (String × String)} {s : TaskState}
    (hp : Ensures (exec pg) (Tells l s) p s) (hf : ∀ a, OnlyIssues Mute (f a)) :
    Ensures (exec pg) (Tells l s) (p >>= f) s := by
  rw [ensures_bind]
  refine hp.mono ?_
  intro r s₁ hs₁
  cases r with
  | error e => exact fun a ha => by cases ha
  | ok a =>
      refine (mute_ensures pg (hf a) s₁).mono ?_
      intro r' s' h b hb
      exact (hs₁ a rfl).of_db rfl h

/-! ## The call -/

theorem createAndSendNotification_tells (userId type title message : String)
    (s : TaskState) :
    Ensures (exec pg) (Tells [(userId, type)] s)
      (createAndSendNotification userId type title message) s := by
  simp only [createAndSendNotification, Prog.perform_bind]
  intro ω
  rcases exec_notification_cases pg ω userId type title message s with ⟨-, h⟩ | ⟨hu, h⟩
  · rw [h]
    exact fun a ha => by cases ha
  · rw [h]
    -- the queues take both jobs
    intro ω₁ ω₂ ω₃ a ha
    refine ⟨rfl, ⟨[_], rfl, rfl⟩, ?_⟩
    intro k hk
    rw [List.mem_singleton] at hk
    rw [hk]
    exact hu

theorem announceUpdate_tells (id w actor : String) (task : TaskEntity)
    (completed changed : Bool) (s : TaskState) :
    Ensures (exec pg) (Tells (told task actor completed changed) s)
      (announceUpdate id w actor task completed changed) s := by
  have hlog : ∀ action, OnlyIssues Mute (ask (.activityLog w "TASK" id action actor)) :=
    fun action => ⟨trivial, fun _ => trivial⟩
  unfold announceUpdate told
  cases completed with
  | true =>
      simp only [if_true]
      refine tells_after pg (hlog _) ?_
      intro _ s₁ _
      by_cases hc : task.row.createdBy ≠ actor
      · rw [if_pos hc, if_pos hc]
        exact tells_before pg (createAndSendNotification_tells pg _ _ _ _ s₁) fun _ => trivial
      · rw [if_neg hc, if_neg hc]
        exact fun a ha => Posts.nothing s₁
  | false =>
      simp only [Bool.false_eq_true, if_false]
      have hquiet : Ensures (exec pg) (Tells [] s)
          (ask (.activityLog w "TASK" id "TASK_UPDATED" actor)) s :=
        (mute_ensures pg (hlog _) s).mono fun r s' h a ha => (Posts.nothing s).of_db rfl h
      cases changed with
      | false => exact hquiet
      | true =>
          cases truthy task.row.assignedTo with
          | none => exact hquiet
          | some x =>
              refine tells_after pg (hlog _) ?_
              intro _ s₁ _
              exact tells_before pg (createAndSendNotification_tells pg _ _ _ _ s₁)
                fun _ => trivial

theorem afterSave_tells (id w actor : String) (dto : UpdateTaskDto) (task : LoadedTask)
    (saved : TaskEntity) (s : TaskState) :
    Ensures (exec pg)
      (Tells (told saved actor (completes dto task) (assigneeChanges dto task)) s)
      (afterSave id w actor dto task saved) s := by
  have hbefore : ∀ op, Mute op → OnlyIssues Mute (ask op) :=
    fun op hop => ⟨hop, fun _ => trivial⟩
  unfold afterSave
  refine tells_after pg (hbefore _ trivial) ?_
  intro _ s₁ _
  refine tells_after pg (hbefore _ trivial) ?_
  intro _ s₂ _
  refine tells_after pg (hbefore _ trivial) ?_
  intro _ s₃ _
  exact tells_before pg (announceUpdate_tells pg id w actor saved _ _ s₃)
    fun _ => ⟨trivial, fun _ => trivial⟩

theorem completionTime_mute (dto : UpdateTaskDto) (task : LoadedTask) :
    OnlyIssues Mute (completionTime dto task) := by
  refine (completionTime_issues dto task).mono ?_
  rintro op rfl
  trivial

theorem findById_mute (id w : String) : OnlyIssues Mute (findById id w) := by
  refine (findById_issues id w).mono ?_
  rintro op (_ | _ | _) <;> trivial

/-- What is told is read from the object that the save hands back. -/
theorem updateLoaded_tells (id w actor : String) (dto : UpdateTaskDto) (task : LoadedTask)
    (s : TaskState) :
    Ensures (exec pg) (fun r s' => ∀ a, r = .ok a → ∃ completedAt saved,
        HandedBack s.db (applyDto task dto completedAt) saved ∧
        Posts (told saved actor (completes dto task) (assigneeChanges dto task)) s s')
      (updateLoaded id w actor dto task) s := by
  unfold updateLoaded
  by_cases hversion : versionMismatch dto.version task.row.version = true
  · rw [if_pos hversion]
    exact fun a ha => by cases ha
  · rw [if_neg hversion, ensures_bind]
    refine (mute_ensures pg (completionTime_mute dto task) s).mono ?_
    intro r s₁ hs₁
    cases r with
    | error e => exact fun a ha => by cases ha
    | ok completedAt =>
        intro ω
        cases hout : (exec pg ω (.save (applyDto task dto completedAt)) s₁).2 with
        | error e => exact fun a ha => by cases ha
        | ok saved =>
            have hback := exec_save_handsBack pg hout
            rw [hs₁] at hback
            refine (afterSave_tells pg id w actor dto task saved _).mono ?_
            intro r s' h a ha
            have hposts := (exec_save_posts pg ω (applyDto task dto completedAt) s₁).trans
              (h a ha)
            exact ⟨completedAt, saved, hback, hposts.of_db hs₁.symm rfl⟩

end Runs

/-! ## What was left out -/

section Comparison

variable {db : Database} {dto : UpdateTaskDto} {task : LoadedTask} {actor : String}
  {completedAt : Option Nat} {saved : TaskEntity}

/-- An assignee that the code takes for new is the one that the request names. -/
theorem newAssignee_of_changes {x : String} (hchanges : assigneeChanges dto task = true)
    (htruthy : truthy (dto.assignedTo.assign task.row.assignedTo) = some x)
    (huser : ∃ u ∈ db.users, u.id = x) : newAssignee db dto task = some x := by
  rw [assigneeChanges, Bool.and_eq_true, decide_eq_true_eq, decide_eq_true_eq] at hchanges
  obtain ⟨hset, hother⟩ := hchanges
  obtain ⟨hassign, hne⟩ := truthy_eq_some.mp htruthy
  cases hfield : dto.assignedTo with
  | undefined => exact absurd hfield hset
  | null =>
      rw [hfield] at hassign
      cases hassign
  | val y =>
      rw [hfield] at hassign hother
      cases hassign
      exact newAssignee_eq_some.mpr ⟨hfield, fun h => hother h.symm, hne, huser⟩

/-- And the other way around. -/
theorem changes_of_newAssignee {x : String} (h : newAssignee db dto task = some x) :
    assigneeChanges dto task = true ∧
      truthy (dto.assignedTo.assign task.row.assignedTo) = some x := by
  obtain ⟨hfield, hother, hne, -⟩ := newAssignee_eq_some.mp h
  rw [assigneeChanges, hfield, Bool.and_eq_true, decide_eq_true_eq, decide_eq_true_eq]
  refine ⟨⟨?_, fun hsame => hother hsame.symm⟩, truthy_eq_some.mpr ⟨rfl, hne⟩⟩
  intro hundef
  cases hundef

/-- A completion is told to the creator, and leaves a new assignee out. -/
theorem told_completed (hback : HandedBack db (applyDto task dto completedAt) saved)
    (hcomp : completes dto task = true) (changed : Bool) :
    (told saved actor (completes dto task) changed).Perm (concerned db dto task actor) ↔
      newAssignee db dto task = none := by
  have hcreator : saved.row.createdBy = task.row.createdBy := hback.creator
  have htold : told saved actor (completes dto task) changed
      = if completes dto task = true ∧ task.row.createdBy ≠ actor then
          [(task.row.createdBy, "TASK_COMPLETED")]
        else [] := by
    unfold told
    rw [if_pos hcomp, hcreator]
    by_cases hc : task.row.createdBy ≠ actor
    · rw [if_pos hc, if_pos ⟨hcomp, hc⟩]
    · rw [if_neg hc, if_neg fun h => hc h.2]
  rw [htold, concerned]
  constructor
  · intro hperm
    have hlength := hperm.length_eq
    rw [List.length_append, List.length_map] at hlength
    exact Option.toList_eq_nil_iff.mp (List.length_eq_zero_iff.mp (by omega))
  · intro hnone
    rw [hnone, Option.toList_none, List.map_nil, List.append_nil]

/-- Without a completion the new assignee alone is concerned. -/
theorem concerned_open (hopen : completes dto task = false) :
    concerned db dto task actor
      = (newAssignee db dto task).toList.map fun x => (x, "TASK_ASSIGNED") := by
  rw [concerned, if_neg, List.nil_append]
  rintro ⟨hcomp, -⟩
  rw [hopen] at hcomp
  cases hcomp

/-- A task without an assignee: nobody is told. -/
theorem told_unassigned (hback : HandedBack db (applyDto task dto completedAt) saved)
    (hopen : completes dto task = false) (hnone : task.assignee = none) (changed : Bool) :
    (told saved actor (completes dto task) changed).Perm (concerned db dto task actor) ↔
      newAssignee db dto task = none := by
  have htold : told saved actor (completes dto task) changed = [] := by
    unfold told
    rw [hopen, hback.unassigned hnone]
    cases changed with
    | true => rfl
    | false => rfl
  rw [htold, concerned_open hopen, List.nil_perm, List.map_eq_nil_iff,
    Option.toList_eq_nil_iff]

/-- A task with its assignee: whoever the request names is told. -/
theorem told_assigned (hback : HandedBack db (applyDto task dto completedAt) saved)
    (hopen : completes dto task = false) (hstored : AssigneeStored db task)
    (hreceived : ∀ k ∈ told saved actor (completes dto task) (assigneeChanges dto task),
      ∃ u ∈ db.users, u.id = k.1) :
    told saved actor (completes dto task) (assigneeChanges dto task)
      = concerned db dto task actor := by
  obtain ⟨u, hu, hrow⟩ := hstored
  have hassigned : saved.row.assignedTo = dto.assignedTo.assign task.row.assignedTo :=
    hback.assigned u hu hrow
  rw [concerned_open hopen]
  unfold told at *
  rw [hopen, if_neg Bool.false_ne_true, hassigned] at hreceived ⊢
  cases hnew : newAssignee db dto task with
  | some x =>
      obtain ⟨hchanges, htruthy⟩ := changes_of_newAssignee hnew
      rw [hchanges, htruthy]
      rfl
  | none =>
      cases hchanges : assigneeChanges dto task with
      | false => rfl
      | true =>
          cases htruthy : truthy (dto.assignedTo.assign task.row.assignedTo) with
          | none => rfl
          | some x =>
              -- whoever is told is a user, so the request names him
              rw [hchanges, htruthy] at hreceived
              have huser := hreceived (x, "TASK_ASSIGNED") (List.mem_singleton.mpr rfl)
              rw [newAssignee_of_changes hchanges htruthy huser] at hnew
              cases hnew

/-- A copy whose assignee the row does not hold any more: that one is told whenever the
    request asks for another. -/
theorem told_outdated (hback : HandedBack db (applyDto task dto completedAt) saved)
    (hopen : completes dto task = false) {u : UserView} (hu : task.assignee = some u)
    (hcopy : task.row.assignedTo = some u.id ∧ u.id ≠ "")
    (houtdated : ¬ AssigneeStored db task) :
    (told saved actor (completes dto task) (assigneeChanges dto task)).Perm
        (concerned db dto task actor) ↔ assigneeChanges dto task = false := by
  have hassigned : saved.row.assignedTo = some u.id :=
    hback.outdated u hu fun hrow => houtdated ⟨u, hu, hrow⟩
  have htruthy : truthy (some u.id) = some u.id := truthy_eq_some.mpr ⟨rfl, hcopy.2⟩
  rw [concerned_open hopen]
  unfold told
  rw [hopen, if_neg Bool.false_ne_true, hassigned, htruthy]
  cases hchanges : assigneeChanges dto task with
  | false =>
      have hnone : newAssignee db dto task = none := by
        by_contra hsome
        obtain ⟨x, hx⟩ := Option.ne_none_iff_exists'.mp hsome
        rw [(changes_of_newAssignee hx).1] at hchanges
        cases hchanges
      rw [hnone]
      exact iff_of_true (List.Perm.refl _) rfl
  | true =>
      refine iff_of_false ?_ Bool.noConfusion
      intro hperm
      have hmem := hperm.mem_iff.mp (List.mem_singleton.mpr rfl)
      obtain ⟨x, hx, heq⟩ := List.mem_map.mp hmem
      have hxu : x = u.id := congrArg Prod.fst heq
      -- the assignee that was loaded is no new one
      exact (newAssignee_eq_some.mp (Option.mem_toList.mp hx)).2.1 (hxu ▸ hcopy.1)

/-- Who is told are those whom the update concerns exactly where a new assignee is heard. -/
theorem told_iff (hback : HandedBack db (applyDto task dto completedAt) saved)
    (hcopy : ∀ u, task.assignee = some u → task.row.assignedTo = some u.id ∧ u.id ≠ "")
    (hreceived : ∀ k ∈ told saved actor (completes dto task) (assigneeChanges dto task),
      ∃ u ∈ db.users, u.id = k.1) :
    (told saved actor (completes dto task) (assigneeChanges dto task)).Perm
        (concerned db dto task actor) ↔ AssignmentHeard db dto task := by
  cases hcomp : completes dto task with
  | true =>
      rw [← hcomp, told_completed hback hcomp]
      constructor
      · exact fun hnone => ⟨fun hsome => absurd hnone hsome, fun _ _ => Or.inl hcomp⟩
      · intro h
        by_contra hsome
        rw [(h.heard hsome).1] at hcomp
        cases hcomp
  | false =>
      rw [← hcomp]
      cases hloaded : task.assignee with
      | none =>
          have hnot : ¬ AssigneeStored db task := by
            rintro ⟨u, hu, -⟩
            rw [hloaded] at hu
            cases hu
          rw [told_unassigned hback hcomp hloaded]
          constructor
          · exact fun hnone => ⟨fun hsome => absurd hnone hsome,
              fun _ _ => Or.inr (Or.inl hloaded)⟩
          · intro h
            by_contra hsome
            exact hnot (h.heard hsome).2
      | some u =>
          by_cases hstored : AssigneeStored db task
          · rw [told_assigned hback hcomp hstored hreceived]
            exact iff_of_true (List.Perm.refl _)
              ⟨fun _ => ⟨hcomp, hstored⟩, fun _ _ => Or.inr (Or.inr hstored)⟩
          · rw [told_outdated hback hcomp hloaded (hcopy u hloaded) hstored]
            constructor
            · intro hsame
              refine ⟨fun hsome => ?_, fun _ hchanges => ?_⟩
              · obtain ⟨x, hx⟩ := Option.ne_none_iff_exists'.mp hsome
                rw [(changes_of_newAssignee hx).1] at hsame
                cases hsame
              · rw [hsame] at hchanges
                cases hchanges
            · intro h
              by_contra hchanges
              rw [Bool.not_eq_false] at hchanges
              by_cases hnone : newAssignee db dto task = none
              · rcases h.nobody hnone hchanges with hdone | hnobody | hkept
                · rw [hcomp] at hdone
                  cases hdone
                · rw [hloaded] at hnobody
                  cases hnobody
                · exact hstored hkept
              · exact hstored (h.heard hnone).2

end Comparison

/-- The first assignee of a task does not hear of it. -/
example :
    concerned staffed.db { assignedTo := .val "b" } (loadTask staffed.db planTask) "a"
        = [("b", "TASK_ASSIGNED")] ∧
      (solo (exec plainText) (fun _ => {})
        (updateTask "1" "w" "a" { assignedTo := .val "b" }) staffed).1.db.notifications
        = [] := by decide

/-- Alice's task, completed by Bob in the update that makes him its assignee. -/
def takeAndComplete : UpdateTaskDto := { status := .val .done, assignedTo := .val "b" }

end PlatformTasks
