import TaskPlatform.WorkspaceService

/-! # The transaction of `createWorkspace`

    `createWorkspace` of `src/modules/workspace/workspace.service.ts` with the calls to its
    query runner one by one, each of which may fail: connect, begin, two saves and commit
    in a `try`, rollback in its `catch`, release in its `finally`.  `connect` and
    `startTransaction` stand before the `try`; a transaction that does not begin leaves
    its connection unreleased (`createWorkspace_atomic_iff`).

    Without failures the call does what `PlatformApi.createWorkspace` takes as one step
    (`createWorkspace_refines`). -/

namespace PlatformTransaction

open AsyncProgram PlatformEntities PlatformTasks RowTable
open PlatformApi (ApiAudit ApiProg)

/-! ## Operations -/

/-- The calls to the query runner that may fail. -/
inductive RunnerCall where
  | connect
  | startTransaction
  | saveWorkspace
  | saveMember
  | commitTransaction
  | rollbackTransaction
  deriving DecidableEq, Repr

/-- What `createWorkspace` awaits, each call of the query runner by itself. -/
inductive RunnerOp where
  | findWorkspaceBySlug (slug : String)
  | connect
  | startTransaction
  | saveWorkspace (name slug ownerId : String)
  | saveMember (member : WorkspaceMember)
  | commitTransaction
  | rollbackTransaction
  | release
  | auditLog (action userId : String) (payload : ApiAudit)

/-- The answers. -/
abbrev RunnerOp.Res : RunnerOp → Type
  | .findWorkspaceBySlug _ => Option Workspace
  | .connect => Except HttpError Unit
  | .startTransaction => Except HttpError Unit
  | .saveWorkspace _ _ _ => Except HttpError Workspace
  | .saveMember _ => Except HttpError WorkspaceMember
  | .commitTransaction => Except HttpError Unit
  | .rollbackTransaction => Except HttpError Unit
  | .release => Unit
  | .auditLog _ _ _ => Unit

/-- The method, as a program over these operations. -/
abbrev RunnerProg := Prog RunnerOp RunnerOp.Res HttpError

/-- Await one operation. -/
abbrev ask (op : RunnerOp) : RunnerProg op.Res := Prog.perform op

/-! ## The program -/

/-- The `try` block. -/
def storeWorkspace (ownerId name workspaceSlug : String) : RunnerProg Workspace := do
  let saved ← ask (.saveWorkspace name workspaceSlug ownerId)
  let savedWorkspace ← Prog.orThrow saved
  let member ← ask (.saveMember ⟨savedWorkspace.id, ownerId, .admin⟩)
  let _ ← Prog.orThrow member
  let committed ← ask .commitTransaction
  Prog.orThrow committed
  ask (.auditLog "WORKSPACE_CREATE" ownerId
    (.workspaceCreated savedWorkspace.id workspaceSlug))
  .done savedWorkspace

/-- The `catch` block. -/
def undo (error : HttpError) : RunnerProg Workspace := do
  let rolledBack ← ask .rollbackTransaction
  Prog.orThrow rolledBack
  .fail error

/-- The slug that a request asks for. -/
def workspaceSlug (name : String) (slug : Option String) : String :=
  (truthy slug).getD (PlatformApi.slugOf name)

/-- `createWorkspace`. -/
def createWorkspace (ownerId name : String) (slug : Option String) :
    RunnerProg Workspace := do
  let existing ← ask (.findWorkspaceBySlug (workspaceSlug name slug))
  match existing with
  | some _ => .fail (.conflict
      "A workspace with this slug already exists. Please choose a different slug or name.")
  | none => do
      let connected ← ask .connect
      Prog.orThrow connected
      let started ← ask .startTransaction
      Prog.orThrow started
      Prog.finallyDo ((storeWorkspace ownerId name (workspaceSlug name slug)).catching undo)
        (ask .release)

/-! ## The world -/

/-- The database as others see it, the work of the open transaction, and how often the
    query runner got its connection and gave it back. -/
structure RunnerState where
  stored : Database
  work : Option Database
  obtained : Nat
  released : Nat

/-- Before the call: a new query runner without a connection. -/
def RunnerState.fresh (db : Database) : RunnerState := ⟨db, none, 0, 0⟩

/-- Which calls fail, and the id that an insert generates. -/
structure Circumstances where
  fails : RunnerCall → Bool
  newId : String

/-- `INSERT` of a workspace: a generated id, a free slug, an owner that exists. -/
def insertWorkspaceRow (db : Database) (newId name slug ownerId : String) :
    Except HttpError (Database × Workspace) :=
  let row : Workspace := ⟨newId, name, slug, ownerId⟩
  if newId ≠ "" && (lookup Workspace.id newId db.workspaces).isNone
      && !db.workspaces.any (fun w => w.slug = slug)
      && db.users.any (fun u => u.id = ownerId) then
    .ok ({ db with workspaces := db.workspaces ++ [row] }, row)
  else
    .error .queryFailed

/-- A statement inside the transaction, unless it fails. -/
def statement {α : Type} (c : Circumstances) (call : RunnerCall) (s : RunnerState)
    (run : Database → Except HttpError (Database × α)) : RunnerState × Except HttpError α :=
  if c.fails call then (s, .error .queryFailed)
  else
    match run (s.work.getD s.stored) with
    | .error e => (s, .error e)
    | .ok (db, a) => ({ s with work := some db }, .ok a)

/-- The operations.  A commit that fails has no effect. -/
def runnerExec (c : Circumstances) :
    (op : RunnerOp) → RunnerState → RunnerState × op.Res
  | .findWorkspaceBySlug slug, s => (s, s.stored.workspaces.find? fun w => w.slug = slug)
  | .connect, s =>
      if c.fails .connect then (s, .error .queryFailed)
      else ({ s with obtained := s.obtained + 1 }, .ok ())
  | .startTransaction, s =>
      if c.fails .startTransaction then (s, .error .queryFailed)
      else ({ s with work := some s.stored }, .ok ())
  | .saveWorkspace name slug ownerId, s =>
      statement c .saveWorkspace s fun db => insertWorkspaceRow db c.newId name slug ownerId
  | .saveMember m, s => statement c .saveMember s fun db => PlatformApi.saveMember db m
  | .commitTransaction, s =>
      if c.fails .commitTransaction then (s, .error .queryFailed)
      else ({ s with stored := s.work.getD s.stored, work := none }, .ok ())
  | .rollbackTransaction, s =>
      if c.fails .rollbackTransaction then (s, .error .queryFailed)
      else ({ s with work := none }, .ok ())
  | .release, s => ({ s with released := s.released + 1 }, ())
  | .auditLog _ _ _, s => (s, ())

/-- Run a program to its end under the circumstances. -/
def runUnder {α : Type} (c : Circumstances) (p : RunnerProg α) (s : RunnerState) :
    RunnerState × Except HttpError α :=
  solo (fun _ : Unit => runnerExec c) (fun _ => ()) p s

/-! ## What the parts do -/

theorem statement_cases {α : Type} (c : Circumstances) (call : RunnerCall) (s : RunnerState)
    (run : Database → Except HttpError (Database × α)) :
    (∃ e, statement c call s run = (s, .error e)) ∨
      ∃ db a, run (s.work.getD s.stored) = .ok (db, a) ∧
        statement c call s run = ({ s with work := some db }, .ok a) := by
  unfold statement
  by_cases hf : c.fails call = true
  · exact Or.inl ⟨_, by rw [if_pos hf]⟩
  · rw [if_neg hf]
    cases h : run (s.work.getD s.stored) with
    | error e => exact Or.inl ⟨e, rfl⟩
    | ok out => exact Or.inr ⟨out.1, out.2, rfl, rfl⟩

theorem insertWorkspaceRow_ok {db db' : Database} {newId name slug ownerId : String}
    {w : Workspace} (h : insertWorkspaceRow db newId name slug ownerId = .ok (db', w)) :
    w = ⟨newId, name, slug, ownerId⟩ ∧
      db' = { db with workspaces := db.workspaces ++ [w] } := by
  simp only [insertWorkspaceRow] at h
  split at h
  · cases h
    exact ⟨rfl, rfl⟩
  · cases h

/-- The row of the workspace and the membership of its owner are stored. -/
structure BothStored (ownerId : String) (db : Database) (w : Workspace) : Prop where
  workspace : w ∈ db.workspaces
  owner : w.ownerId = ownerId
  member : ⟨w.id, ownerId, .admin⟩ ∈ db.members

/-- Both rows are stored and the call returned, or nothing is and it threw. -/
def AllOrNothing (ownerId : String) (db : Database) (s : RunnerState) :
    Except HttpError Workspace → Prop
  | .ok w => BothStored ownerId s.stored w
  | .error _ => s.stored = db

/-- A connection that was obtained has been given back, once. -/
def ReleasedOnce (s : RunnerState) : Prop := 0 < s.obtained → s.released = 1

theorem releasedOnce_of_none {s : RunnerState} (h : s.obtained = 0) : ReleasedOnce s := by
  intro hpos
  rw [h] at hpos
  exact absurd hpos (lt_irrefl _)

section Parts

variable (c : Circumstances) {ownerId name slug : String} {s : RunnerState}

/-- The connection has neither been obtained nor given back in between. -/
def SameConnection (s s' : RunnerState) : Prop :=
  s'.obtained = s.obtained ∧ s'.released = s.released

/-- Inside an open transaction the `try` block stores both rows, or it throws and has
    stored nothing. -/
theorem storeWorkspace_ensures :
    Ensures (fun _ : Unit => runnerExec c)
      (fun r s' => AllOrNothing ownerId s.stored s' r ∧ SameConnection s s')
      (storeWorkspace ownerId name slug) s := by
  intro _
  rcases statement_cases c .saveWorkspace s fun db =>
    insertWorkspaceRow db c.newId name slug ownerId with ⟨e, h⟩ | ⟨db, w, hrow, h⟩
  · simp only [runnerExec, h]
    exact ⟨rfl, rfl, rfl⟩
  · obtain ⟨hw, hdb⟩ := insertWorkspaceRow_ok hrow
    simp only [runnerExec, h]
    intro _
    -- the workspace is written in the transaction only
    rcases statement_cases c .saveMember { s with work := some db } fun db =>
      PlatformApi.saveMember db ⟨w.id, ownerId, .admin⟩ with ⟨e, h₂⟩
        | ⟨db₂, m, hmember, h₂⟩
    · simp only [runnerExec, h₂]
      exact ⟨rfl, rfl, rfl⟩
    · obtain ⟨-, hdb₂, -⟩ := PlatformApi.saveMember_ok hmember
      simp only [runnerExec, h₂]
      intro _
      by_cases hcommit : c.fails .commitTransaction = true
      · simp only [runnerExec, if_pos hcommit]
        exact ⟨rfl, rfl, rfl⟩
      · -- both rows are stored at once
        simp only [runnerExec, if_neg hcommit]
        intro _
        refine ⟨⟨?_, by rw [hw], ?_⟩, rfl, rfl⟩
        · show w ∈ db₂.workspaces
          rw [hdb₂]
          show w ∈ db.workspaces
          rw [hdb]
          exact List.mem_append_right _ (List.mem_singleton.mpr rfl)
        · show _ ∈ db₂.members
          rw [hdb₂]
          exact mem_upsert_self _ _

/-- The `catch` block throws and stores nothing. -/
theorem undo_ensures (e : HttpError) :
    Ensures (fun _ : Unit => runnerExec c)
      (fun r s' => (∃ e', r = .error e') ∧ s'.stored = s.stored ∧ SameConnection s s')
      (undo e) s := by
  intro _
  by_cases hrollback : c.fails .rollbackTransaction = true
  · simp only [runnerExec, if_pos hrollback]
    exact ⟨⟨_, rfl⟩, rfl, rfl, rfl⟩
  · simp only [runnerExec, if_neg hrollback]
    exact ⟨⟨_, rfl⟩, rfl, rfl, rfl⟩

/-- Once the transaction is open, the connection is given back on every way out. -/
theorem transaction_ensures :
    Ensures (fun _ : Unit => runnerExec c)
      (fun r s' => AllOrNothing ownerId s.stored s' r ∧ s'.obtained = s.obtained ∧
        s'.released = s.released + 1)
      (Prog.finallyDo ((storeWorkspace ownerId name slug).catching undo) (ask .release)) s := by
  rw [ensures_finallyDo, ensures_catching]
  refine (storeWorkspace_ensures c).mono ?_
  rintro r s₁ ⟨hstored, hobtained, hreleased⟩
  cases r with
  | ok w =>
      intro _
      exact ⟨hstored, hobtained, congrArg (· + 1) hreleased⟩
  | error e =>
      refine (undo_ensures c e).mono ?_
      rintro r s₂ ⟨⟨e', rfl⟩, hstored₂, hobtained₂, hreleased₂⟩
      intro _
      refine ⟨hstored₂.trans hstored, hobtained₂.trans hobtained, ?_⟩
      show s₂.released + 1 = _
      rw [hreleased₂, hreleased]

end Parts

/-- **When `createWorkspace` is all or nothing.**  For every database, every request and
    every pattern of failures: it has stored both rows and returned, or stored nothing and
    thrown, and the connection is given back once if it was obtained, exactly when the
    transaction begins or the call does not come to begin it. -/
theorem createWorkspace_atomic_iff (c : Circumstances) (db : Database)
    (ownerId name : String) (slug : Option String) :
    (AllOrNothing ownerId db
        (runUnder c (createWorkspace ownerId name slug) (.fresh db)).1
        (runUnder c (createWorkspace ownerId name slug) (.fresh db)).2 ∧
      ReleasedOnce (runUnder c (createWorkspace ownerId name slug) (.fresh db)).1) ↔
      (c.fails .startTransaction = false ∨ c.fails .connect = true ∨
        ∃ w ∈ db.workspaces, w.slug = workspaceSlug name slug) := by
  have hend : Ensures (fun _ : Unit => runnerExec c)
      (fun r s' => (AllOrNothing ownerId db s' r ∧ ReleasedOnce s') ↔
        (c.fails .startTransaction = false ∨ c.fails .connect = true ∨
          ∃ w ∈ db.workspaces, w.slug = workspaceSlug name slug))
      (createWorkspace ownerId name slug) (.fresh db) := by
    intro _
    cases hfound : (runnerExec c (.findWorkspaceBySlug (workspaceSlug name slug))
        (.fresh db)).2 with
    | some w =>
        have hslug := List.find?_some hfound
        have htaken : ∃ w ∈ db.workspaces, w.slug = workspaceSlug name slug :=
          ⟨w, List.mem_of_find?_eq_some hfound, of_decide_eq_true hslug⟩
        exact ⟨fun _ => Or.inr (Or.inr htaken), fun _ => ⟨rfl, releasedOnce_of_none rfl⟩⟩
    | none =>
        have hfree : ¬ ∃ w ∈ db.workspaces, w.slug = workspaceSlug name slug := by
          rintro ⟨w, hw, hslug⟩
          have hnot := List.find?_eq_none.mp hfound w hw
          simp [hslug] at hnot
        intro _
        by_cases hconnect : c.fails .connect = true
        · simp only [runnerExec, if_pos hconnect]
          exact ⟨fun _ => Or.inr (Or.inl hconnect),
            fun _ => ⟨rfl, releasedOnce_of_none rfl⟩⟩
        · simp only [runnerExec, if_neg hconnect]
          intro _
          by_cases hstart : c.fails .startTransaction = true
          · -- the connection is there, and nothing gives it back
            simp only [runnerExec, if_pos hstart]
            constructor
            · rintro ⟨-, hreleased⟩
              have hnever : 0 = 1 := hreleased Nat.one_pos
              cases hnever
            · rintro (h | h | h)
              · rw [hstart] at h
                cases h
              · exact absurd h hconnect
              · exact absurd h hfree
          · simp only [runnerExec, if_neg hstart]
            refine (transaction_ensures c).mono ?_
            rintro r s' ⟨hstored, -, hreleased⟩
            exact ⟨fun _ => Or.inl (Bool.eq_false_iff.mpr hstart),
              fun _ => ⟨hstored, fun _ => hreleased⟩⟩
  exact (ensures_iff _ _ _).mp hend fun _ => ()

/-- The office, where the transaction does not begin: the call throws and keeps the
    connection. -/
theorem createWorkspace_leaks :
    let c : Circumstances := ⟨fun call => call = .startTransaction, "v"⟩
    (runUnder c (createWorkspace "a" "Vault" none) (.fresh office.db)).2.isOk = false ∧
      (runUnder c (createWorkspace "a" "Vault" none) (.fresh office.db)).1.obtained = 1 ∧
      (runUnder c (createWorkspace "a" "Vault" none) (.fresh office.db)).1.released = 0 ∧
      ¬ (AllOrNothing "a" office.db
          (runUnder c (createWorkspace "a" "Vault" none) (.fresh office.db)).1
          (runUnder c (createWorkspace "a" "Vault" none) (.fresh office.db)).2 ∧
        ReleasedOnce (runUnder c (createWorkspace "a" "Vault" none) (.fresh office.db)).1) := by
  intro c
  have hobtained : (runUnder c (createWorkspace "a" "Vault" none) (.fresh office.db)).1.obtained
      = 1 := by decide
  have hreleased : (runUnder c (createWorkspace "a" "Vault" none) (.fresh office.db)).1.released
      = 0 := by decide
  refine ⟨by decide, hobtained, hreleased, ?_⟩
  rintro ⟨-, honce⟩
  have h := honce (by rw [hobtained]; exact Nat.one_pos)
  rw [hreleased] at h
  cases h

/-! ## The transaction as one step -/

/-- A saved workspace is one whose owner is a user, so its membership can be saved. -/
theorem saveMember_of_inserted {db db' : Database} {newId name slug ownerId : String}
    {w : Workspace} (h : insertWorkspaceRow db newId name slug ownerId = .ok (db', w)) :
    PlatformApi.saveMember db' ⟨newId, ownerId, .admin⟩
      = .ok ({ db' with
          members := upsert PlatformApi.memberKey ⟨newId, ownerId, .admin⟩ db.members },
        ⟨newId, ownerId, .admin⟩) := by
  obtain ⟨hw, hdb⟩ := insertWorkspaceRow_ok h
  have huser : db.users.any (fun u => u.id = ownerId) = true := by
    simp only [insertWorkspaceRow] at h
    split at h
    · rename_i hcond
      rw [Bool.and_eq_true] at hcond
      exact hcond.2
    · cases h
  have hworkspace : (db.workspaces ++ [w]).any (fun w => w.id = newId) = true := by
    rw [List.any_append, hw]
    simp
  rw [hdb, PlatformApi.saveMember]
  dsimp only
  rw [hworkspace, huser, if_pos (by decide)]

/-- The one statement of the model without a transaction is the two inserts. -/
theorem insertWorkspace_eq (db : Database) (newId name slug ownerId : String) :
    PlatformApi.insertWorkspace db newId name slug ownerId
      = (insertWorkspaceRow db newId name slug ownerId).map fun out =>
          ({ out.1 with
            members := upsert PlatformApi.memberKey ⟨newId, ownerId, .admin⟩ db.members },
            out.2) := by
  unfold PlatformApi.insertWorkspace insertWorkspaceRow
  dsimp only
  split
  · rfl
  · rfl

/-- **Without failures** the call leaves the database that `PlatformApi.createWorkspace`
    leaves, and comes back with the same workspace or the same exception. -/
theorem createWorkspace_refines (pg : PlatformApi.Postgres) (c : Circumstances)
    (hc : ∀ call, c.fails call = false) (ω : Nat → Choice)
    (hω : ∀ n, (ω n).newId = c.newId)
    (s : TaskState) (ownerId name : String) (slug : Option String) :
    (runUnder c (createWorkspace ownerId name slug) (.fresh s.db)).1.stored
        = (solo (PlatformApi.apiExec pg) ω (PlatformApi.createWorkspace ownerId name slug) s).1.db
      ∧ (runUnder c (createWorkspace ownerId name slug) (.fresh s.db)).2
        = (solo (PlatformApi.apiExec pg) ω
            (PlatformApi.createWorkspace ownerId name slug) s).2.map LoadedWorkspace.row := by
  simp only [runUnder, createWorkspace, PlatformApi.createWorkspace, Prog.perform_bind,
    solo_await, runnerExec, PlatformApi.apiExec, workspaceSlug, RunnerState.fresh]
  cases s.db.workspaces.find? fun w =>
      decide (w.slug = (truthy slug).getD (PlatformApi.slugOf name)) with
  | some w => exact ⟨rfl, rfl⟩
  | none =>
      cases hrow : insertWorkspaceRow s.db c.newId name
          ((truthy slug).getD (PlatformApi.slugOf name)) ownerId with
      | error e =>
          simp [hc, hω, hrow, runnerExec, statement, insertWorkspace_eq, storeWorkspace, undo,
            PlatformApi.apiExec, PlatformApi.commit, Prog.orThrow, PlatformApi.orThrow,
            TaskState.wait, Except.map]
      | ok out =>
          obtain ⟨db', w⟩ := out
          obtain ⟨hw, hdb⟩ := insertWorkspaceRow_ok hrow
          have hmember := saveMember_of_inserted hrow
          have hid : w.id = c.newId := by rw [hw]
          simp [hc, hω, hrow, hid, hmember, runnerExec, statement, insertWorkspace_eq,
            storeWorkspace, PlatformApi.apiExec, PlatformApi.commit, Prog.orThrow,
            PlatformApi.orThrow, TaskState.wait, Except.map]

end PlatformTransaction
