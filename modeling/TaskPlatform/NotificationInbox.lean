import TaskPlatform.AnswerHistory
import TaskPlatform.Announcements
import TaskPlatform.TaskRuns

/-! # `NotificationService`: the inbox

    `getNotificationsForUser`, `markAsRead` and `markAllAsRead` of
    `src/modules/notification/notification.service.ts`, next to
    `createAndSendNotification` and the task calls that use it.  Any awaited call may
    fail.  A read mark is set by loading a row and saving it, or by one bulk update; in
    every interleaving marks are only ever added, and only their owners add them
    (`inbox_run`). -/

namespace PlatformInbox

open AsyncProgram Interleaving PlatformEntities RowTable
open PlatformTasks (TaskOp TaskCall TaskReply TaskState PostgresText Choice)

/-! ## Operations -/

/-- What the calls of the inbox await. -/
inductive InboxOp where
  /-- What the task calls and `createAndSendNotification` await. -/
  | task (op : TaskOp)
  | find (userId : String) (isRead : Option Bool)
  | findOne (id userId : String)
  | save (notification : Notification)
  /-- `update({ userId, isRead: false }, { isRead: true })`. -/
  | updateUnread (userId : String)

/-- What an operation answers when it does not fail. -/
abbrev InboxOp.Answer : InboxOp → Type
  | .task op => op.Res
  | .find _ _ => List Notification
  | .findOne _ _ => Option Notification
  | .save _ => Notification
  | .updateUnread _ => Unit

/-- Every operation may fail. -/
abbrev InboxOp.Res (op : InboxOp) : Type := Except HttpError op.Answer

/-- The methods of the service, as programs over these operations. -/
abbrev InboxProg := Prog InboxOp InboxOp.Res HttpError

/-- Await one operation; what it throws is thrown on. -/
def ask (op : InboxOp) : InboxProg op.Answer := .await op fun r => Prog.orThrow r

/-- A program of the task service. -/
def liftTask {α : Type} (p : PlatformTasks.TaskProg α) : InboxProg α :=
  p.expand fun op => ask (.task op)

/-! ## The programs -/

/-- `getNotificationsForUser`. -/
def getNotificationsForUser (userId : String) (isRead : Option Bool) :
    InboxProg (List Notification) := ask (.find userId isRead)

/-- `markAsRead`: the row is loaded, marked and saved. -/
def markAsRead (id userId : String) : InboxProg (Option Notification) := do
  let notification ← ask (.findOne id userId)
  match notification with
  | some notification => do
      let saved ← ask (.save { notification with isRead := true })
      .done (some saved)
  | none => .done none

/-- `markAllAsRead`: one `UPDATE`. -/
def markAllAsRead (userId : String) : InboxProg Unit := ask (.updateUnread userId)

/-- The calls: those of the inbox, a notification sent by some service, a task call. -/
inductive InboxCall where
  | getNotificationsForUser (userId : String) (isRead : Option Bool)
  | markAsRead (id userId : String)
  | markAllAsRead (userId : String)
  | createAndSendNotification (userId type title message : String)
  | task (call : TaskCall)

/-- What the calls return. -/
inductive InboxReply where
  | listed (notifications : List Notification)
  | marked (notification : Option Notification)
  | success
  | sent (notification : Notification)
  | task (reply : TaskReply)

/-- The method behind each call. -/
def InboxCall.prog : InboxCall → InboxProg InboxReply
  | .getNotificationsForUser u r => .listed <$> PlatformInbox.getNotificationsForUser u r
  | .markAsRead id u => .marked <$> PlatformInbox.markAsRead id u
  | .markAllAsRead u => (fun _ => .success) <$> PlatformInbox.markAllAsRead u
  | .createAndSendNotification u ty ti m =>
      .sent <$> liftTask (PlatformTasks.createAndSendNotification u ty ti m)
  | .task call => .task <$> liftTask call.prog

/-! ## The table -/

/-- The state of the task service, and when each notification was created. -/
structure InboxState where
  tasks : TaskState
  createdAt : String → Nat

/-- The table of the notifications. -/
def InboxState.rows (s : InboxState) : List Notification := s.tasks.db.notifications

/-- The table of the notifications replaced. -/
def InboxState.withRows (s : InboxState) (rows : List Notification) : InboxState :=
  { s with tasks := { s.tasks with db := { s.tasks.db with notifications := rows } } }

/-- What the outside world decides at an await, and the error that the call ends in if it
    fails. -/
structure Decision where
  choice : Choice := {}
  fault : Option HttpError := none

/-- Time passes while an operation is awaited. -/
def InboxState.wait (s : InboxState) (d : Decision) : InboxState :=
  { s with tasks := s.tasks.wait d.choice }

/-- `find` with `order: { createdAt: 'DESC' }`. -/
def findRows (s : InboxState) (userId : String) (isRead : Option Bool) : List Notification :=
  (s.rows.filter fun n => n.userId = userId && isRead.all (fun b => n.isRead = b)).mergeSort
    fun a b => decide (s.createdAt b.id ≤ s.createdAt a.id)

/-- The `UPDATE` of a row. -/
def markUnread (userId : String) (n : Notification) : Notification :=
  if n.userId = userId && n.isRead = false then { n with isRead := true } else n

section Exec

variable (pg : PostgresText)

/-- An operation that does not fail on the way.  A row is inserted under a new id; the
    `save` of a loaded row writes the columns in which the object differs from it. -/
def carryOut (d : Decision) : (op : InboxOp) → InboxState → InboxState × op.Res
  | .task (.insertNotification userId type title message), s =>
      if s.rows.any (fun n => n.id = d.choice.newId) then
        (s.wait d, .ok (.error .queryFailed))
      else
        let out := PlatformTasks.exec pg d.choice
          (.insertNotification userId type title message) s.tasks
        (⟨out.1, fun id => if id = d.choice.newId then out.1.now else s.createdAt id⟩,
          .ok out.2)
  | .task op, s =>
      let out := PlatformTasks.exec pg d.choice op s.tasks
      ({ s with tasks := out.1 }, .ok out.2)
  | .find userId isRead, s => (s.wait d, .ok (findRows s userId isRead))
  | .findOne id userId, s =>
      (s.wait d, .ok (s.rows.find? (fun n => n.id = id && n.userId = userId)))
  | .save n, s => ((s.wait d).withRows (upsert Notification.id n s.rows), .ok n)
  | .updateUnread userId, s =>
      ((s.wait d).withRows (s.rows.map (markUnread userId)), .ok ())

/-- The operations. -/
def exec (d : Decision) (op : InboxOp) (s : InboxState) : InboxState × op.Res :=
  match d.fault with
  | some e => (s.wait d, .error e)
  | none => carryOut pg d op s

end Exec

/-! ## What a step does to the rows -/

/-- All that an operation can do to the notifications. -/
inductive RowsStep (newId : String) :
    InboxOp → List Notification → List Notification → Prop where
  | same (op : InboxOp) (rows : List Notification) : RowsStep newId op rows rows
  | inserted {userId type title message : String} {rows : List Notification}
      (hfresh : ∀ n ∈ rows, n.id ≠ newId) :
      RowsStep newId (.task (.insertNotification userId type title message)) rows
        (rows ++ [⟨newId, userId, type, title, message, false⟩])
  | saved (n : Notification) (rows : List Notification) :
      RowsStep newId (.save n) rows (upsert Notification.id n rows)
  | marked (userId : String) (rows : List Notification) :
      RowsStep newId (.updateUnread userId) rows (rows.map (markUnread userId))

/-- No other operation of the task service touches the notifications. -/
theorem exec_notifications (pg : PostgresText) (ω : Choice) (op : TaskOp) (s : TaskState)
    (hop : ∀ u ty ti m, op ≠ .insertNotification u ty ti m) :
    (PlatformTasks.exec pg ω op s).1.db.notifications = s.db.notifications := by
  cases op with
  | insert n =>
      rcases PlatformTasks.exec_insert_cases pg ω n s with ⟨e, h⟩ | ⟨db, row, hins, h⟩
      · rw [h]
        rfl
      · obtain ⟨-, -, rfl, -, -⟩ := PlatformTasks.insertTask_ok hins
        rw [h]
  | save e =>
      rcases PlatformTasks.exec_save_cases pg ω e s with ⟨err, h⟩ | ⟨db, saved, hs, h⟩
      · rw [h]
        rfl
      · rw [h]
        cases hs with
        | unchanged row stored wanted => rfl
        | inserted new wanted gone keys => rfl
        | updated old new wanted stored writes keys => rfl
  | softRemove t =>
      show (PlatformTasks.softRemoveTask s.db _ t.row.id).notifications = _
      rcases PlatformTasks.softRemoveTask_cases s.db (s.now + ω.elapsed) t.row.id with
        ⟨-, h⟩ | ⟨row, -, h⟩
      · rw [h]
      · rw [h]
  | insertNotification u ty ti m => exact absurd rfl (hop u ty ti m)
  | _ => rfl

theorem exec_rows (pg : PostgresText) (d : Decision) (op : InboxOp) (s : InboxState) :
    RowsStep d.choice.newId op s.rows (exec pg d op s).1.rows := by
  unfold exec
  cases d.fault with
  | some e => exact .same op s.rows
  | none =>
      cases op with
      | task op =>
          cases op with
          | insertNotification u ty ti m =>
              dsimp only [carryOut]
              split
              · exact .same _ _
              · next hfresh =>
                  rcases PlatformTasks.exec_notification_cases pg d.choice u ty ti m s.tasks with
                    ⟨-, h⟩ | ⟨-, h⟩
                  · rw [h]
                    exact .same _ _
                  · rw [h]
                    refine .inserted ?_
                    simpa using hfresh
          | _ =>
              refine Eq.subst (motive := RowsStep _ _ s.rows)
                (exec_notifications pg d.choice _ s.tasks ?_).symm (.same _ _)
              rintro u ty ti m h
              cases h
      | save n => exact .saved n s.rows
      | updateUnread u => exact .marked u s.rows
      | _ => exact .same _ _

/-- The rows of the same notification: all columns agree but the mark. -/
def SameContent (a b : Notification) : Prop := { a with isRead := b.isRead } = b

theorem SameContent.refl (a : Notification) : SameContent a a := rfl

theorem SameContent.trans {a b c : Notification} (h : SameContent a b) (h' : SameContent b c) :
    SameContent a c := by
  unfold SameContent at *
  rw [← h', ← h]

theorem SameContent.id {a b : Notification} (h : SameContent a b) : a.id = b.id := by
  rw [← h]

theorem SameContent.userId {a b : Notification} (h : SameContent a b) :
    a.userId = b.userId := by
  rw [← h]

/-- A row, still there with its content, and read if it was read. -/
def Endures (n : Notification) (rows : List Notification) : Prop :=
  ∃ n' ∈ rows, SameContent n n' ∧ (n.isRead = true → n'.isRead = true)

theorem markUnread_same (userId : String) (n : Notification) :
    SameContent n (markUnread userId n) := by
  unfold markUnread
  split <;> rfl

theorem markUnread_id (userId : String) (n : Notification) : (markUnread userId n).id = n.id :=
  (markUnread_same userId n).id.symm

theorem markUnread_isRead {userId : String} {n : Notification}
    (h : n.isRead = true ∨ n.userId = userId) : (markUnread userId n).isRead = true := by
  unfold markUnread
  split
  · rfl
  · next hno =>
      cases hr : n.isRead with
      | true => rfl
      | false =>
          rcases h with h | h
          · rw [hr] at h
            cases h
          · exact absurd (by simp [h, hr]) hno

/-- A saved object is a row of the table, marked. -/
def SavesRow (op : InboxOp) (rows : List Notification) : Prop :=
  ∀ n, op = .save n → n.isRead = true ∧ ∃ r ∈ rows, SameContent r n

theorem RowsStep.unique {newId : String} {op : InboxOp} {rows rows' : List Notification}
    (h : RowsStep newId op rows rows') (hu : Unique Notification.id rows) :
    Unique Notification.id rows' := by
  cases h with
  | same => exact hu
  | inserted hfresh => exact hu.append (lookup_eq_none.mpr hfresh)
  | saved n => exact hu.upsert n
  | marked userId =>
      show ((rows.map (markUnread userId)).map Notification.id).Nodup
      rw [List.map_map]
      exact (List.map_congr_left fun n _ => markUnread_id userId n) ▸ hu

theorem RowsStep.endures {newId : String} {op : InboxOp} {rows rows' : List Notification}
    (h : RowsStep newId op rows rows') (hu : Unique Notification.id rows)
    (hsave : SavesRow op rows) {n : Notification} (hn : n ∈ rows) : Endures n rows' := by
  cases h with
  | same => exact ⟨n, hn, .refl n, fun h => h⟩
  | inserted hfresh => exact ⟨n, List.mem_append_left _ hn, .refl n, fun h => h⟩
  | saved m =>
      obtain ⟨hread, r, hr, hrm⟩ := hsave m rfl
      by_cases hid : n.id = m.id
      · have hnr : n = r := hu.eq_of_key hn hr (hid.trans hrm.id.symm)
        exact ⟨m, mem_upsert_self m rows, hnr ▸ hrm, fun _ => hread⟩
      · exact ⟨n, mem_upsert_of_ne hn hid, .refl n, fun h => h⟩
  | marked userId =>
      exact ⟨markUnread userId n, List.mem_map.mpr ⟨n, hn, rfl⟩, markUnread_same userId n,
        fun h => markUnread_isRead (Or.inl h)⟩

/-- Where a mark comes from: the row was read before, or the step has marked it. -/
theorem RowsStep.mark {newId : String} {op : InboxOp} {rows rows' : List Notification}
    (h : RowsStep newId op rows rows') {n : Notification} (hn : n ∈ rows')
    (hread : n.isRead = true) :
    (∃ r ∈ rows, r.id = n.id ∧ r.isRead = true) ∨ op = .save n ∨
      op = .updateUnread n.userId := by
  cases h with
  | same => exact Or.inl ⟨n, hn, rfl, hread⟩
  | inserted hfresh =>
      rcases List.mem_append.mp hn with hn | hn
      · exact Or.inl ⟨n, hn, rfl, hread⟩
      · rw [List.mem_singleton.mp hn] at hread
        cases hread
  | saved m =>
      rcases eq_or_mem_of_mem_upsert hn with rfl | hn
      · exact Or.inr (Or.inl rfl)
      · exact Or.inl ⟨n, hn, rfl, hread⟩
  | marked userId =>
      obtain ⟨r, hr, rfl⟩ := List.mem_map.mp hn
      by_cases hu : r.userId = userId
      · refine Or.inr (Or.inr ?_)
        rw [← (markUnread_same userId r).userId, hu]
      · refine Or.inl ⟨r, hr, (markUnread_id userId r).symm, ?_⟩
        have hsame : markUnread userId r = r := by
          unfold markUnread
          rw [if_neg (by simp [hu])]
        rwa [hsame] at hread

/-! ## What the calls know -/

/-- A row that was loaded under an id for a user. -/
structure Loaded where
  id : String
  userId : String
  row : Notification

/-- What the answers teach. -/
inductive Teaches : (op : InboxOp) → op.Res → Loaded → Prop where
  | found {id userId : String} {row : Notification} :
      Teaches (.findOne id userId) (.ok (some row)) ⟨id, userId, row⟩

/-- What one of these calls has been told when it marks. -/
def Grounds (calls : InboxCall → Prop) (K : Loaded → Prop) : InboxOp → Prop
  | .save n => ∃ x, K x ∧ calls (.markAsRead x.id x.userId) ∧
    n = { x.row with isRead := true }
  | .updateUnread userId => calls (.markAllAsRead userId)
  | _ => True

/-- What a program needs to know for its operations, and what the answers tell it. -/
def inboxLearning (calls : InboxCall → Prop) : Learning InboxOp InboxOp.Res Loaded where
  needs := Grounds calls
  learns _ := Teaches

/-- What a call has been told is so. -/
def Holds (s : InboxState) (x : Loaded) : Prop :=
  x.row.id = x.id ∧ x.row.userId = x.userId ∧ ∃ r ∈ s.rows, SameContent x.row r

theorem onlyIssues_liftTask {α : Type} (p : PlatformTasks.TaskProg α) :
    OnlyIssues (fun op => ∃ o, op = InboxOp.task o) (liftTask p) := by
  induction p with
  | done a => trivial
  | fail e => trivial
  | await op k ih =>
      refine ⟨⟨op, rfl⟩, ?_⟩
      intro r
      cases r with
      | error e => trivial
      | ok a => exact ih a

theorem informed_liftTask {α : Type} (calls : InboxCall → Prop) (p : PlatformTasks.TaskProg α)
    (K : Loaded → Prop) : Informed (inboxLearning calls) (fun _ _ => True) K (liftTask p) :=
  (onlyIssues_liftTask p).informed (by rintro K' _ ⟨o, rfl⟩; trivial) K

theorem informed_call {calls : InboxCall → Prop} {call : InboxCall} (hcall : calls call) :
    Informed (inboxLearning calls) (fun _ _ => True) (fun _ => False) call.prog := by
  cases call with
  | getNotificationsForUser u isRead =>
      refine Informed.map ⟨trivial, ?_⟩
      intro r
      cases r with
      | error e => trivial
      | ok l => trivial
  | markAsRead id u =>
      refine Informed.map ⟨trivial, ?_⟩
      intro r
      cases r with
      | error e => trivial
      | ok found =>
          cases found with
          | none => trivial
          | some row =>
              refine ⟨⟨⟨id, u, row⟩, Or.inr .found, hcall, rfl⟩, ?_⟩
              intro r
              cases r with
              | error e => trivial
              | ok saved => trivial
  | markAllAsRead u =>
      refine Informed.map ⟨hcall, ?_⟩
      intro r
      cases r with
      | error e => trivial
      | ok a => trivial
  | createAndSendNotification u ty ti m => exact Informed.map (informed_liftTask calls _ _)
  | task call => exact Informed.map (informed_liftTask calls _ _)

section Sound

variable {pg : PostgresText} {calls : InboxCall → Prop}

/-- An answer is one of an operation that was carried out. -/
theorem exec_of_ok {d : Decision} {op : InboxOp} {s : InboxState} {a : op.Answer}
    (h : (exec pg d op s).2 = .ok a) : exec pg d op s = carryOut pg d op s := by
  unfold exec at h ⊢
  cases hd : d.fault with
  | some e =>
      rw [hd] at h
      cases h
  | none => rfl

theorem exec_teaches {d : Decision} {op : InboxOp} {s : InboxState} {x : Loaded}
    (hx : Teaches op (exec pg d op s).2 x) : Holds s x := by
  generalize hr : (exec pg d op s).2 = r at hx
  cases hx with
  | found =>
      rename_i id userId row
      rw [exec_of_ok hr] at hr
      have hfind : s.rows.find? (fun n => n.id = id && n.userId = userId) = some row :=
        Except.ok.inj hr
      have hrow := List.find?_some hfind
      rw [Bool.and_eq_true, decide_eq_true_eq, decide_eq_true_eq] at hrow
      exact ⟨hrow.1, hrow.2, row, List.mem_of_find?_eq_some hfind, .refl row⟩

theorem savesRow_of_grounds {s : InboxState} {K : Loaded → Prop} (hK : ∀ x, K x → Holds s x)
    {op : InboxOp} (hg : Grounds calls K op) : SavesRow op s.rows := by
  rintro n rfl
  obtain ⟨x, hx, -, rfl⟩ := hg
  obtain ⟨-, -, r, hr, hsame⟩ := hK x hx
  refine ⟨rfl, r, hr, ?_⟩
  unfold SameContent at *
  rw [← hsame]

/-- The rows of the start endure, and a mark is an old one or one of the calls'. -/
structure Marked (calls : InboxCall → Prop) (rows₀ rows : List Notification) : Prop where
  ids : Unique Notification.id rows
  kept : ∀ n ∈ rows₀, Endures n rows
  owner : ∀ n ∈ rows, n.isRead = true →
    (∃ r ∈ rows₀, r.id = n.id ∧ r.isRead = true) ∨ calls (.markAsRead n.id n.userId) ∨
      calls (.markAllAsRead n.userId)

theorem marked_start {rows : List Notification} (h : Unique Notification.id rows) :
    Marked calls rows rows where
  ids := h
  kept := fun n hn => ⟨n, hn, .refl n, fun h => h⟩
  owner := fun n hn hread => Or.inl ⟨n, hn, rfl, hread⟩

variable (pg) in
theorem inbox_sound (rows₀ : List Notification) :
    Sound (exec pg) (inboxLearning calls) Holds (fun s => Marked calls rows₀ s.rows)
      (fun _ _ => True) where
  keep := by
    intro d op s K hs hK hg _
    have hstep := exec_rows pg d op s
    have hsave := savesRow_of_grounds hK hg
    have hstay : ∀ n ∈ s.rows, Endures n (exec pg d op s).1.rows := fun n hn =>
      hstep.endures hs.ids hsave hn
    have hholds : ∀ x, Holds s x → Holds (exec pg d op s).1 x := by
      rintro x ⟨hid, hu, r, hr, hsame⟩
      obtain ⟨r', hr', hsame', -⟩ := hstay r hr
      exact ⟨hid, hu, r', hr', hsame.trans hsame'⟩
    refine ⟨⟨hstep.unique hs.ids, ?_, ?_⟩, hholds, fun x hx => hholds x (exec_teaches hx)⟩
    · intro n hn
      obtain ⟨r, hr, hsame, hread⟩ := hs.kept n hn
      obtain ⟨r', hr', hsame', hread'⟩ := hstay r hr
      exact ⟨r', hr', hsame.trans hsame', fun h => hread' (hread h)⟩
    · intro n hn hread
      rcases hstep.mark hn hread with ⟨r, hr, hid, hr'⟩ | rfl | rfl
      · -- the row was read before this step
        obtain ⟨r'', hr'', hsame, hread''⟩ := hstay r hr
        have hrn : r'' = n :=
          (hstep.unique hs.ids).eq_of_key hr'' hn (hsame.id.symm.trans hid)
        have hown := hs.owner r hr hr'
        rw [← hrn, ← hsame.id, ← hsame.userId]
        exact hown
      · obtain ⟨x, hx, hcall, rfl⟩ := hg
        obtain ⟨hid, hu, -⟩ := hK x hx
        refine Or.inr (Or.inl ?_)
        show calls (.markAsRead x.row.id x.row.userId)
        rw [hid, hu]
        exact hcall
      · exact Or.inr (Or.inr hg)

end Sound

/-! ## Runs -/

section Runs

variable {pg : PostgresText}

/-- The calls at their start. -/
def callsOn (s : InboxState) (calls : List InboxCall) :
    Pool InboxOp InboxOp.Res HttpError InboxReply InboxState :=
  ⟨s, calls.map InboxCall.prog⟩

theorem callsOn_call {s : InboxState} {calls : List InboxCall} {i : Nat} {call : InboxCall}
    (h : calls[i]? = some call) : (callsOn s calls).calls[i]? = some call.prog := by
  show (calls.map InboxCall.prog)[i]? = _
  rw [List.getElem?_map, h]
  rfl

theorem informed_callsOn (s : InboxState) (calls : List InboxCall) :
    ∀ p ∈ (callsOn s calls).calls,
      Informed (inboxLearning (· ∈ calls)) (fun _ _ => True) (fun _ => False) p := by
  intro p hp
  obtain ⟨call, hcall, rfl⟩ := List.mem_map.mp hp
  exact informed_call hcall

variable (pg) in
theorem callsOn_marked {s : InboxState} (hs : Unique Notification.id s.rows)
    (calls : List InboxCall) (l : List (Nat × Decision)) :
    Marked (· ∈ calls) s.rows (run (exec pg) (callsOn s calls) l).shared.rows :=
  (inbox_sound pg s.rows).run (informed_callsOn s calls)
    (meets_of_forall _ (fun _ _ _ _ _ => trivial) _ _) (marked_start hs)

/-- A notification that is read. -/
def IsRead (id : String) (s : InboxState) : Prop := ∃ n ∈ s.rows, n.id = id ∧ n.isRead = true

/-- A row that is there at some time of the run is there from then on. -/
theorem row_endures {s : InboxState} (hs : Unique Notification.id s.rows)
    {calls : List InboxCall} {l₁ l₂ : List (Nat × Decision)} {n : Notification}
    (hn : n ∈ (run (exec pg) (callsOn s calls) l₁).shared.rows) :
    Endures n (run (exec pg) (callsOn s calls) (l₁ ++ l₂)).shared.rows := by
  have hmeets := (inbox_sound pg s.rows).meets (informed_callsOn s calls)
    (meets_of_forall _ (fun _ _ _ _ _ => trivial) _ (l₁ ++ l₂)) (marked_start hs)
  rw [meets_append] at hmeets
  rw [run_append]
  refine run_invariant _ (I := fun c => Endures n c.shared.rows) ?_ hmeets.2
    ⟨n, hn, .refl n, fun h => h⟩
  rintro c j d' hC ⟨r, hr, hnr, hread⟩
  rcases step_cases (exec pg) c j d' with h0 | ⟨op, k, hop, h0⟩
  · rw [h0]
    exact ⟨r, hr, hnr, hread⟩
  · obtain ⟨hs', K, hK, hg⟩ := hC op k hop
    obtain ⟨r', hr', hsame, hread'⟩ := (exec_rows pg d' op c.shared).endures hs'.ids
      (savesRow_of_grounds hK hg) hr
    rw [h0]
    exact ⟨r', hr', hnr.trans hsame, fun h => hread' (hread h)⟩

theorem isRead_stays {s : InboxState} (hs : Unique Notification.id s.rows)
    {calls : List InboxCall} {l₁ l₂ : List (Nat × Decision)} {i : Nat} {d : Decision}
    {id : String}
    (h : IsRead id (step (exec pg) (run (exec pg) (callsOn s calls) l₁) i d).shared) :
    IsRead id (run (exec pg) (callsOn s calls) (l₁ ++ (i, d) :: l₂)).shared := by
  obtain ⟨n, hn, hid, hread⟩ := h
  have hstep : step (exec pg) (run (exec pg) (callsOn s calls) l₁) i d
      = run (exec pg) (callsOn s calls) (l₁ ++ [(i, d)]) := by
    rw [run_append, run_cons, run_nil]
  rw [hstep] at hn
  have hends : Endures n
      (run (exec pg) (callsOn s calls) (l₁ ++ [(i, d)] ++ l₂)).shared.rows := row_endures hs hn
  obtain ⟨r, hr, hsame, hr'⟩ := hends
  rw [List.append_assoc] at hr
  exact ⟨r, hr, hsame.id.symm.trans hid, hr' hread⟩

/-- The bulk update of a user was carried out. -/
inductive Updates (userId : String) : (op : InboxOp) → op.Res → Prop where
  | updated : Updates userId (.updateUnread userId) (.ok ())

theorem markAllAsRead_updates (userId : String) :
    MustObtain (Updates userId) (InboxCall.prog (.markAllAsRead userId)) := by
  intro r
  cases r with
  | error e => exact Or.inr trivial
  | ok a => exact Or.inl .updated

/-- The row was found not to be there, or an object was saved. -/
inductive Finishes (id userId : String) : (op : InboxOp) → op.Res → Prop where
  | missing : Finishes id userId (.findOne id userId) (.ok none)
  | saved {n n' : Notification} : Finishes id userId (.save n) (.ok n')

theorem markAsRead_finishes (id userId : String) :
    MustObtain (Finishes id userId) (InboxCall.prog (.markAsRead id userId)) := by
  intro r
  cases r with
  | error e => exact Or.inr trivial
  | ok found =>
      cases found with
      | none => exact Or.inl .missing
      | some row =>
          refine Or.inr ?_
          intro r
          cases r with
          | error e => exact Or.inr trivial
          | ok n' => exact Or.inl .saved

/-- What a run leaves of the notifications. -/
structure InboxRun (calls : List InboxCall) (s : InboxState)
    (c : Pool InboxOp InboxOp.Res HttpError InboxReply InboxState) : Prop where
  /-- No notification is lost or changed, no mark is taken back, and who has marked one
      owns it. -/
  marked : Marked (· ∈ calls) s.rows c.shared.rows
  /-- A `markAsRead` that has returned has marked the notification of its user. -/
  one : ∀ (i : Nat) (id userId : String) (reply : InboxReply),
    calls[i]? = some (.markAsRead id userId) → c.calls[i]? = some (.done reply) →
    ∀ n ∈ s.rows, n.id = id → n.userId = userId → IsRead id c.shared
  /-- A `markAllAsRead` that has returned has marked all that its user had. -/
  all : ∀ (i : Nat) (userId : String) (reply : InboxReply),
    calls[i]? = some (.markAllAsRead userId) → c.calls[i]? = some (.done reply) →
    ∀ n ∈ s.rows, n.userId = userId → IsRead n.id c.shared

theorem inboxRun_run (s : InboxState) (hs : Unique Notification.id s.rows)
    (calls : List InboxCall) (l : List (Nat × Decision)) :
    InboxRun calls s (run (exec pg) (callsOn s calls) l) := by
  refine ⟨callsOn_marked pg hs calls l, ?_, ?_⟩
  · intro i id userId reply hcall hdone n hn hid hu
    obtain ⟨l₁, d, l₂, op, k, rfl, hop, hfin⟩ :=
      (markAsRead_finishes id userId).obtained (callsOn_call hcall) hdone
    obtain ⟨r, hr, hsame, -⟩ := (callsOn_marked pg hs calls l₁).kept n hn
    refine isRead_stays hs ?_
    rw [step_await _ hop]
    generalize hans : (exec pg d op (run (exec pg) (callsOn s calls) l₁).shared).2 = a at hfin
    cases hfin with
    | missing =>
        rw [exec_of_ok hans] at hans
        have hnone : (run (exec pg) (callsOn s calls) l₁).shared.rows.find?
            (fun n => n.id = id && n.userId = userId) = none := Except.ok.inj hans
        refine absurd ?_ (List.find?_eq_none.mp hnone r hr)
        rw [← hsame.id, ← hsame.userId, hid, hu]
        simp
    | saved =>
        rename_i e e'
        -- the object that is saved is the row that this call has loaded
        have hinf : Informed (inboxLearning (· = .markAsRead id userId)) (fun _ _ => True)
            (fun _ => False) (InboxCall.prog (.markAsRead id userId)) := informed_call rfl
        obtain ⟨K, hK, htold⟩ := hinf.told (callsOn_call hcall) hop
        obtain ⟨x, hx, hself, rfl⟩ := hK.1
        rcases htold x hx with h | ⟨m₁, d', m₂, op', k', K', -, -, hlearn⟩
        · exact h.elim
        obtain ⟨hxid, -, -⟩ := exec_teaches hlearn
        injection hself with hself _
        rw [exec_of_ok hans]
        exact ⟨_, mem_upsert_self _ _, hxid.trans hself, rfl⟩
  · intro i userId reply hcall hdone n hn hu
    obtain ⟨l₁, d, l₂, op, k, rfl, hop, hupd⟩ :=
      (markAllAsRead_updates userId).obtained (callsOn_call hcall) hdone
    obtain ⟨r, hr, hsame, -⟩ := (callsOn_marked pg hs calls l₁).kept n hn
    refine isRead_stays hs ?_
    rw [step_await _ hop]
    generalize hans : (exec pg d op (run (exec pg) (callsOn s calls) l₁).shared).2 = a at hupd
    cases hupd with
    | updated =>
        rw [exec_of_ok hans]
        refine ⟨markUnread userId r, List.mem_map.mpr ⟨r, hr, rfl⟩, ?_, ?_⟩
        · exact (markUnread_id userId r).trans hsame.id.symm
        · exact markUnread_isRead (Or.inr (hsame.userId.symm.trans hu))

/-- **Read marks.**  For every table, every number of calls and every order of their
    steps, whatever fails.  What was sent in the run endures as well. -/
theorem inbox_run (s : InboxState) (hs : Unique Notification.id s.rows)
    (calls : List InboxCall) (l : List (Nat × Decision)) :
    InboxRun calls s (run (exec pg) (callsOn s calls) l) ∧
      ∀ l₁ l₂, l = l₁ ++ l₂ →
        ∀ n ∈ (run (exec pg) (callsOn s calls) l₁).shared.rows,
        Endures n (run (exec pg) (callsOn s calls) l).shared.rows := by
  refine ⟨inboxRun_run s hs calls l, ?_⟩
  rintro l₁ l₂ rfl n hn
  exact row_endures hs hn

end Runs

/-- Two notifications for Bob, one of them read. -/
def bobsInbox : InboxState where
  tasks :=
    { db := ⟨[⟨"b", "bob@x", none, "Bob", none, true⟩], [], [], [], [], [],
        [⟨"n1", "b", "TASK_ASSIGNED", "Plan", "", false⟩,
         ⟨"n2", "b", "COMMENT_ADDED", "Plan", "", true⟩]⟩
      cache := fun _ => none
      now := 0 }
  createdAt := fun _ => 0

/-- Two marks and a new notification of one user. -/
def readWhileSending : List InboxCall :=
  [.markAsRead "n1" "b", .markAllAsRead "b", .createAndSendNotification "b" "TASK_ASSIGNED" "Do" ""]

/-- The first call has loaded its row when a new notification comes and all are marked. -/
def inBetween : List (Nat × Decision) :=
  [(0, {}), (2, { choice := { newId := "n3" } }), (1, {}), (0, {})]

theorem bobs_inbox_run :
    InboxRun readWhileSending bobsInbox
        (run (exec PlatformTasks.plainText) (callsOn bobsInbox readWhileSending) inBetween) ∧
      ∀ l₁ l₂, inBetween = l₁ ++ l₂ →
        ∀ n ∈ (run (exec PlatformTasks.plainText) (callsOn bobsInbox readWhileSending)
          l₁).shared.rows,
          Endures n (run (exec PlatformTasks.plainText) (callsOn bobsInbox readWhileSending)
            inBetween).shared.rows :=
  inbox_run bobsInbox (by decide) readWhileSending inBetween

end PlatformInbox
