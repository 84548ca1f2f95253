import TaskPlatform.LiveViews
import TaskPlatform.WriteDuties

/-! # What the room of a workspace is told

    Every write of the task service changes rows of one workspace (`exec_rowsOf`), and the
    call that makes it goes on to an event for the room of that workspace, unless a
    notification is refused on the way (`announced_owed`).  So whatever a view showed before a
    change is dropped after it (`listeners_are_told`).  The room is named after the text of
    the request, so that has to be the id as the column spells it. -/

namespace PlatformLive

open AsyncProgram Interleaving PlatformEntities PlatformTasks RowTable
open PlatformApi (DashboardSession)
open PlatformDuties (Owed)

/-! ## Announcements -/

/-- The operation sends an event to the room of the workspace. -/
def Tells (w : String) : TaskOp → Prop
  | .emit e => eventWorkspace e = some w
  | _ => False

/-- No notification and no job is refused. -/
def Accepted : (op : TaskOp) → op.Res → Prop
  | .insertNotification _ _ _ _, r => ∃ n, r = .ok n
  | .queueAdd _, r => r = .ok ()
  | _, _ => True

/-- The one to be notified is a user. -/
def Addressed (s : TaskState) : TaskOp → Prop
  | .insertNotification userId _ _ _ => ∃ u ∈ s.db.users, u.id = userId
  | _ => True

instance (s : TaskState) (op : TaskOp) : Decidable (Addressed s op) :=
  match op with
  | .insertNotification userId _ _ _ =>
      inferInstanceAs (Decidable (∃ u ∈ s.db.users, u.id = userId))
  | .cacheGet _ | .cacheSet _ _ _ | .cacheDel _ | .cacheDelPattern _ | .findOne _ _
  | .getManyAndCount _ _ _ | .insert _ | .save _ | .softRemove _ | .currentTime
  | .auditLog _ _ _ | .activityLog _ _ _ _ _ | .queueAdd _ | .emit _ => isTrue trivial

/-- The rest of a call tells the room. -/
abbrev WillTell (w : String) (p : TaskProg TaskReply) : Prop := WillIssueIf Accepted (Tells w) p

/-- What a call that is about to write owes to the room of its workspace. -/
def Announced : TaskProg TaskReply → Prop
  | .await (.insert n) k => ∀ row, WillTell n.workspaceId (k (.ok row))
  | .await (.save e) k => ∀ saved, WillTell e.row.workspaceId (k (.ok saved))
  | .await (.softRemove t) k => WillTell t.row.workspaceId (k ())
  | _ => True

section Accepting

variable (pg : PostgresText)

theorem accepted_of_addressed (ω : Choice) (op : TaskOp) (s : TaskState)
    (h : Addressed s op) : Accepted op (exec pg ω op s).2 := by
  cases op with
  | insertNotification userId type title message =>
      obtain ⟨u, hu, hid⟩ := h
      have hany : (s.db.users.any fun u => u.id = userId) = true :=
        List.any_eq_true.mpr ⟨u, hu, decide_eq_true hid⟩
      refine ⟨⟨ω.newId, userId, type, title, message, false⟩, ?_⟩
      show (exec pg ω (.insertNotification userId type title message) s).2 = _
      simp only [exec, hany, if_true]
  | queueAdd job => rfl
  | _ => trivial

end Accepting

/-! ## The parts of the calls that announce -/

theorem notification_returnsIf (u ty ti m : String) :
    ReturnsIf Accepted (createAndSendNotification u ty ti m) := by
  simp only [createAndSendNotification, Prog.perform_bind]
  rintro r ⟨n, rfl⟩ _ _ _ rfl _ rfl
  trivial

theorem announceUpdate_returnsIf (id w u : String) (t : TaskEntity) (completed changed : Bool) :
    ReturnsIf Accepted (announceUpdate id w u t completed changed) := by
  unfold announceUpdate
  cases completed with
  | true =>
      simp only [if_true]
      intro _ _
      by_cases hc : t.row.createdBy ≠ u
      · simp only [if_pos hc]
        exact (notification_returnsIf _ _ _ _).bind fun _ => trivial
      · simp only [if_neg hc]
        trivial
  | false =>
      simp only [Bool.false_eq_true, if_false]
      cases changed with
      | false => exact fun _ _ => trivial
      | true =>
          cases truthy t.row.assignedTo with
          | none => exact fun _ _ => trivial
          | some assignee =>
              exact fun _ _ => (notification_returnsIf _ _ _ _).bind fun _ => trivial

/-- After its save an update comes to its event. -/
theorem afterSave_tells (id w u : String) (dto : UpdateTaskDto) (t : LoadedTask)
    (saved : TaskEntity) : WillTell w (afterSave id w u dto t saved) := by
  refine Or.inr fun _ _ => Or.inr fun _ _ => Or.inr fun _ _ => ?_
  exact (announceUpdate_returnsIf _ _ _ _ _ _).then_issue fun _ => Or.inl rfl

/-- **Who writes owes an event.** -/
theorem announced_owed : Owed Announced where
  quiet := by
    intro op k h
    cases op with
    | insert n => exact h.elim
    | save e => exact h.elim
    | softRemove t => exact h.elim
    | _ => trivial
  fill _ _ _ _ := trivial
  done _ := trivial
  fail _ := trivial
  create w p u dto := fun row =>
    Or.inr fun _ _ => Or.inr fun _ _ => Or.inr fun _ _ => Or.inl rfl
  save u dto t c := fun saved => afterSave_tells t.row.id t.row.workspaceId u dto t saved
  remove u t := Or.inr fun _ _ => Or.inr fun _ _ => Or.inr fun _ _ => Or.inr fun _ _ =>
    Or.inr fun _ _ => Or.inl rfl

/-! ## What a write changes -/

section Writes

variable {pg : PostgresText} {w : String}

theorem rowsOf_append {db : Database} {row : Task} (h : row.workspaceId ≠ w) :
    rowsOf w { db with tasks := db.tasks ++ [row] } = rowsOf w db :=
  filter_append_ne db.tasks (decide_eq_false h)

/-- An overwritten row of another workspace. -/
theorem rowsOf_replace {db : Database} (hids : Unique Task.id db.tasks) {old row : Task}
    (hold : lookup Task.id row.id db.tasks = some old) (hsame : SameIdentity row old)
    (h : row.workspaceId ≠ w) :
    rowsOf w { db with tasks := RowTable.replace Task.id row db.tasks } = rowsOf w db := by
  obtain ⟨holdmem, holdid⟩ := lookup_mem hold
  refine filter_replace (decide_eq_false h) ?_
  intro r hr hid
  rw [hids.eq_of_key hr holdmem (hid.trans holdid.symm)]
  exact decide_eq_false (hsame.workspaceId ▸ h)

/-- **Who changes the rows of a workspace tells its room.** -/
theorem exec_rowsOf {ω : Choice} {op : TaskOp} {k : op.Res → TaskProg TaskReply} {s : TaskState}
    (hinv : Consistent s.db s.cache) (howes : Duty s (.await op k))
    (htells : Announced (.await op k)) :
    rowsOf w (exec pg ω op s).1.db = rowsOf w s.db ∨ WillTell w (k (exec pg ω op s).2) := by
  have heffect := exec_effect pg ω op s
  generalize (exec pg ω op s).1.db = db, (exec pg ω op s).2 = answer at heffect ⊢
  cases heffect with
  | same op notifications answer kept => exact Or.inl rfl
  | @insert n row wanted new keys named =>
      have hplace : row.workspaceId = n.workspaceId := by
        rw [wanted]
        rfl
      by_cases hw : row.workspaceId = w
      · exact Or.inr (hw ▸ hplace ▸ htells row)
      · exact Or.inl (rowsOf_append hw)
  | reinsert wanted gone keys =>
      -- the row of a loaded task is never gone
      obtain ⟨-, ⟨r, hr, hre⟩, -⟩ := howes
      obtain ⟨hne, -, -⟩ := toRow_some wanted
      exact absurd (hre.id.trans hne.id.symm) (lookup_eq_none.mp gone r hr)
  | @update e saved old new wanted stored writes keys =>
      obtain ⟨-, hmem, -⟩ := howes
      obtain ⟨hne, -, -⟩ := toRow_some wanted
      have hsame : SameIdentity (updateRow (s.now + ω.elapsed) old new) old :=
        (updateRow_identity _ old new).trans (same_of_toRow hinv.ids wanted stored hmem)
      by_cases hw : new.workspaceId = w
      · have hplace : e.row.workspaceId = w := hne.workspaceId.symm.trans hw
        exact Or.inr (hplace ▸ htells saved)
      · exact Or.inl (rowsOf_replace hinv.ids stored hsame hw)
  | @softRemove t row stored =>
      obtain ⟨⟨r, hr, hre⟩, -⟩ := howes
      obtain ⟨hmem, hid⟩ := lookup_mem stored
      have heq : r = row := hinv.ids.eq_of_key hr hmem (hre.id.trans hid.symm)
      subst heq
      by_cases hw : r.workspaceId = w
      · have hplace : t.row.workspaceId = w := hre.workspaceId.symm.trans hw
        exact Or.inr (hplace ▸ htells)
      · have hstored : lookup Task.id (markDeleted (s.now + ω.elapsed) r).id
            s.db.tasks = some r := hid ▸ stored
        exact Or.inl (rowsOf_replace hinv.ids hstored (markDeleted_identity _ r) hw)

end Writes

/-! ## Runs -/

section Runs

variable (pg : PostgresText)

/-- **Listeners are told.**  In every interleaving of task calls that comes to rest, where
    those who are to be notified are users and the calls spell their ids as the columns do:
    if a step changes what a view of a workspace shows, then the same call afterwards sends
    an event to the room of that workspace, and there the view is dropped. -/
theorem listeners_are_told (uuid : String → Option String) (s : TaskState)
    (hs : Consistent s.db s.cache) (calls : List TaskCall)
    (hspelled : ∀ c ∈ calls, c.Spelled uuid)
    (earlier : List (Nat × Choice)) (i : Nat) (ω : Choice) (later : List (Nat × Choice))
    (haddressed : Meets (exec pg) (OnOp Addressed) (poolByValue uuid s calls)
      (earlier ++ (i, ω) :: later))
    (hrest : ∀ p ∈ (run (exec pg) (poolByValue uuid s calls)
      (earlier ++ (i, ω) :: later)).calls, p.finished = true)
    (session : DashboardSession) (now : Nat → Int) (w : String) (v : View)
    (hchange : shows pg session now
        (run (exec pg) (poolByValue uuid s calls) (earlier ++ [(i, ω)])).shared.db w v
      ≠ shows pg session now
        (run (exec pg) (poolByValue uuid s calls) earlier).shared.db w v) :
    ∃ between ω' rest, later = between ++ (i, ω') :: rest ∧
      ∃ e k, (run (exec pg) (poolByValue uuid s calls)
          (earlier ++ (i, ω) :: between)).calls[i]? = some (.await (.emit e) k) ∧
        eventWorkspace e = some w ∧ drops e v = true := by
  have hword := fun (op : TaskOp) (k : op.Res → TaskProg TaskReply)
    (hi : (run (exec pg) (poolByValue uuid s calls) earlier).calls[i]? = some (.await op k)) =>
    Owed.at_step pg (announced_owed.orderly_byValue pg hs hspelled) hi
  obtain ⟨-, hmeets⟩ := (meets_append (exec pg) _ _ _ _).mp haddressed
  rw [run_append] at hchange hrest
  generalize hc : run (exec pg) (poolByValue uuid s calls) earlier = c at *
  have hone : run (exec pg) c [(i, ω)] = step (exec pg) c i ω := rfl
  rw [hone] at hchange
  rcases step_cases (exec pg) c i ω with h0 | ⟨op, k, hi, h0⟩
  · rw [h0] at hchange
    exact absurd rfl hchange
  · obtain ⟨hinv, hduty, hannounced⟩ := hword op k hi
    have hrows : rowsOf w (exec pg ω op c.shared).1.db = rowsOf w c.shared.db ∨
        WillTell w (k (exec pg ω op c.shared).2) := exec_rowsOf hinv hduty hannounced
    have hwill : WillTell w (k (exec pg ω op c.shared).2) := by
      refine hrows.resolve_left ?_
      intro hsame
      obtain ⟨husers, -, hprojects⟩ := exec_static pg ω op c.shared
      rw [h0] at hchange
      exact hchange (shows_congr pg session now hsame husers hprojects v)
    have hself := step_calls_self (exec pg) hi ω
    obtain ⟨between, ω', rest, hsplit, op', k', hcall, htells⟩ :=
      WillIssueIf.issued (accepted_of_addressed pg) hself hwill hmeets.2
        (fun q hq => hrest q (List.mem_of_getElem? hq))
    refine ⟨between, ω', rest, hsplit, ?_⟩
    rw [run_append, hc]
    cases op' with
    | emit e => exact ⟨e, k', hcall, htells, drops_of_room htells v⟩
    | _ => exact htells.elim

end Runs

/-- Alice creates a task for Bob, whose card appears when its row is inserted. -/
theorem card_is_told :
    ∃ between ω' rest, turns [0, 0, 0, 0, 0, 0, 0, 0] = between ++ (0, ω') :: rest ∧
      ∃ e k, (run (exec plainText)
          (poolByValue capitals office
            [.createTask "w" "p" "a" { title := "Plan", assignedTo := some "b" }])
          ([] ++ (0, ⟨0, [], "1"⟩) :: between)).calls[0]? = some (.await (.emit e) k) ∧
        eventWorkspace e = some "w" ∧ drops e (.card "1") = true := by
  have hmissing : findOneTask office.db "1" "w" = none := by decide
  refine listeners_are_told plainText capitals office
    (Reachable.consistent plainText ⟨office, [], [], ⟨rfl, fun _ => rfl⟩, rfl⟩)
    [.createTask "w" "p" "a" { title := "Plan", assignedTo := some "b" }] (by decide) []
    0 ⟨0, [], "1"⟩
    (turns [0, 0, 0, 0, 0, 0, 0, 0]) (by decide) (by decide) PlatformApi.plainSession
    (fun _ => 0) "w" (.card "1") ?_
  intro hsame
  have hnone : Shown.task (findOneTask office.db "1" "w") = .task none :=
    congrArg Shown.task hmissing
  cases hsame.trans hnone

end PlatformLive
