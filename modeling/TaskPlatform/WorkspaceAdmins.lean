import TaskPlatform.ApiRuns

/-! # Workspaces and their administrators

    `createWorkspace` inserts a workspace together with the membership of its owner, and
    no call takes that membership away again (`Staffed`).  But `updateWorkspace` saves a
    workspace that it has read before, maybe an hour ago from the cache, and a save
    whose row has been deleted in the meantime inserts it again, now without members.
    Runs keep an administrator in every workspace exactly as long as no step does that
    (`workspaces_administered_iff`). -/

namespace PlatformApi

open AsyncProgram Interleaving PlatformEntities PlatformTasks RowTable

/-- The owner of every workspace is a member with the role `ADMIN`. -/
def Administered (db : Database) : Prop :=
  ∀ w ∈ db.workspaces, (⟨w.id, w.ownerId, .admin⟩ : WorkspaceMember) ∈ db.members

instance (db : Database) : Decidable (Administered db) :=
  inferInstanceAs (Decidable (∀ w ∈ db.workspaces, _))

/-- The constraints of the table hold for the row of this object: its slug is free, its
    owner a user. -/
def acceptsWorkspace (db : Database) (w : LoadedWorkspace) : Bool :=
  !db.workspaces.any (fun w' =>
      w'.slug = (LoadedWorkspace.toRow w).slug && w'.id ≠ (LoadedWorkspace.toRow w).id)
    && db.users.any fun u => u.id = (LoadedWorkspace.toRow w).ownerId

/-- Saving this object would insert a row. -/
def bringsBack (db : Database) (w : LoadedWorkspace) : Bool :=
  (lookup Workspace.id w.row.id db.workspaces).isNone && acceptsWorkspace db w

/-- No workspace that has been deleted is saved. -/
def keepsRows (h : ApiHistory) : ApiOp → Bool
  | .saveWorkspace w => !bringsBack h.state.db w
  | _ => true

/-! ## What a step does -/

/-- What becomes of the workspaces and their members. -/
inductive WorkspaceStep (ω : Choice) (s : TaskState) :
    ApiOp → List Workspace → List WorkspaceMember → Prop where
  | same (op : ApiOp) : WorkspaceStep ω s op s.db.workspaces s.db.members
  | insert {name slug ownerId : String} (named : ω.newId ≠ "") :
      WorkspaceStep ω s (.insertWorkspace name slug ownerId)
        (s.db.workspaces ++ [⟨ω.newId, name, slug, ownerId⟩])
        (upsert memberKey ⟨ω.newId, ownerId, .admin⟩ s.db.members)
  | save {w : LoadedWorkspace} (accepted : acceptsWorkspace s.db w = true) :
      WorkspaceStep ω s (.saveWorkspace w)
        (upsert Workspace.id (LoadedWorkspace.toRow w) s.db.workspaces) s.db.members
  | saveMember {m : WorkspaceMember} (placed : ∃ w ∈ s.db.workspaces, w.id = m.workspaceId) :
      WorkspaceStep ω s (.saveMember m) s.db.workspaces (upsert memberKey m s.db.members)
  | remove (id : String) :
      WorkspaceStep ω s (.removeWorkspace id) (s.db.workspaces.filter fun w => w.id ≠ id)
        (s.db.members.filter fun m => m.workspaceId ≠ id)

theorem saveWorkspace_cases (db : Database) (w : LoadedWorkspace) :
    (acceptsWorkspace db w = false ∧ saveWorkspace db w = .error .queryFailed) ∨
      acceptsWorkspace db w = true ∧ saveWorkspace db w
        = .ok ({ db with
            workspaces := upsert Workspace.id (LoadedWorkspace.toRow w) db.workspaces }, w) := by
  have hif : ∀ a b : Bool, ∀ x y : Except HttpError (Database × LoadedWorkspace),
      ((!a && b) = false ∧ (if a || !b then x else y) = x) ∨
        (!a && b) = true ∧ (if a || !b then x else y) = y := by
    intro a b x y
    cases a <;> cases b <;> simp
  exact hif _ _ _ _

theorem apiExec_workspaces (pg : Postgres) (ω : Choice) (op : ApiOp) (s : TaskState) :
    WorkspaceStep ω s op (apiExec pg ω op s).1.db.workspaces
      (apiExec pg ω op s).1.db.members := by
  -- a statement that is rejected, or leads to another database
  have hcommit : ∀ {α : Type} (r : Except HttpError (Database × α)),
      (∀ db a, r = .ok (db, a) → WorkspaceStep ω s op db.workspaces db.members) →
      WorkspaceStep ω s op (commit (s.wait ω) r).1.db.workspaces
        (commit (s.wait ω) r).1.db.members := by
    intro α r hr
    cases r with
    | error e => exact .same op
    | ok out => exact hr out.1 out.2 rfl
  cases op with
  | task op =>
      obtain ⟨tasks, notifications, h⟩ := exec_frame pg.text ω op s
      show WorkspaceStep ω s _ (exec pg.text ω op s).1.db.workspaces
        (exec pg.text ω op s).1.db.members
      rw [h]
      exact .same _
  | insertWorkspace name slug ownerId =>
      refine hcommit _ ?_
      intro db w h
      obtain ⟨hid, -, rfl, rfl⟩ := insertWorkspace_ok h
      exact .insert hid
  | saveWorkspace w =>
      refine hcommit _ ?_
      intro db saved h
      rcases saveWorkspace_cases s.db w with ⟨-, h'⟩ | ⟨haccept, -⟩
      · rw [h'] at h
        cases h
      · rw [(saveWorkspace_ok h).1]
        exact .save haccept
  | saveMember m =>
      refine hcommit _ ?_
      intro db saved h
      obtain ⟨hplaced, rfl, -⟩ := saveMember_ok h
      exact .saveMember hplaced
  | removeWorkspace id => exact .remove id
  | insertProject w n d st =>
      refine hcommit _ ?_
      intro db p h
      rw [(insertProject_ok h).2.2.2.2]
      exact .same _
  | saveProject p =>
      refine hcommit _ ?_
      intro db saved h
      rw [(saveProject_ok h).1]
      exact .same _
  | insertComment t u m =>
      refine hcommit _ ?_
      intro db c h
      rw [(insertComment_ok h).2]
      exact .same _
  | _ => exact .same _

/-! ## What stays -/

/-- What a call knows of workspaces stays true: whoever has been the owner is the owner,
    as long as the workspace is there. -/
def Vouched (h : ApiHistory) : Known → Prop
  | .task _ => True
  | .workspace w => w.row.id ∈ h.issued ∧ ∀ row ∈ h.state.db.workspaces,
      row.id = w.row.id → row.ownerId = (LoadedWorkspace.toRow w).ownerId
  | .seen id => id ∈ h.issued
  | .stranger w u => w ∈ h.issued ∧ ∀ row ∈ h.state.db.workspaces, row.id = w →
    row.ownerId ≠ u

/-- What every run keeps true of workspaces and memberships. -/
structure Staffed (h : ApiHistory) : Prop where
  ids : RowTable.Unique Workspace.id h.state.db.workspaces
  issued : ∀ w ∈ h.state.db.workspaces, w.id ∈ h.issued
  admins : Administered h.state.db
  /-- Memberships belong to workspaces that are there. -/
  placed : ∀ m ∈ h.state.db.members, ∃ w ∈ h.state.db.workspaces, w.id = m.workspaceId
  cached : ∀ k w, h.state.cache k = some (.workspace w) → Vouched h (.workspace w)
  byId : ∀ id w, h.state.cache (getCacheKey id false) = some (.workspace w) → id ∈ h.issued

section Step

variable {h : ApiHistory} {ω : Choice} {op : ApiOp} {K : Known → Prop}

/-- The object of a save was vouched for when it was loaded. -/
theorem vouched_save {w : LoadedWorkspace} (hK : ∀ x, K x → Vouched h x)
    (hneeds : apiLearning.needs K (.saveWorkspace w)) : Vouched h (.workspace w) := by
  obtain ⟨w₀, hw₀, hid, howner, hloaded⟩ := hneeds
  obtain ⟨hissued, hrows⟩ := hK _ hw₀
  have hsame : (LoadedWorkspace.toRow w₀).ownerId = (LoadedWorkspace.toRow w).ownerId := by
    simp only [LoadedWorkspace.toRow, hloaded, howner]
  rw [hid] at hissued hrows
  rw [hsame] at hrows
  exact ⟨hissued, hrows⟩

/-- A save that brings nothing back finds the row of its object. -/
theorem save_found {w : LoadedWorkspace} (hkeep : keepsRows h (.saveWorkspace w) = true)
    (haccept : acceptsWorkspace h.state.db w = true) :
    ∃ row ∈ h.state.db.workspaces, row.id = w.row.id := by
  have hback : bringsBack h.state.db w = false := by simpa [keepsRows] using hkeep
  unfold bringsBack at hback
  rw [haccept, Bool.and_true] at hback
  cases hl : lookup Workspace.id w.row.id h.state.db.workspaces with
  | none =>
      rw [hl] at hback
      cases hback
  | some row => exact ⟨row, (lookup_mem hl).1, (lookup_mem hl).2⟩

/-- Rows of known workspaces have the owner that they had. -/
theorem owners_stay (hK : ∀ x, K x → Vouched h x)
    (hneeds : apiLearning.needs K op) (hkeep : keepsRows h op = true)
    {ws : List Workspace} {ms : List WorkspaceMember}
    (hstep : WorkspaceStep (h.fresh ω) h.state op ws ms) {row : Workspace} (hrow : row ∈ ws)
    (hid : row.id ∈ h.issued) :
    ∃ old ∈ h.state.db.workspaces, old.id = row.id ∧ old.ownerId = row.ownerId := by
  cases hstep with
  | same op => exact ⟨row, hrow, rfl, rfl⟩
  | insert named =>
      rcases List.mem_append.mp hrow with hrow | hrow
      · exact ⟨row, hrow, rfl, rfl⟩
      · -- the new id has never been issued
        obtain ⟨hω, hfresh⟩ := fresh_newId named
        rw [List.mem_singleton.mp hrow] at hid
        exact absurd (hω ▸ hid) hfresh
  | @save w accepted =>
      obtain ⟨old, hold, holdid⟩ := save_found hkeep accepted
      obtain ⟨-, hrows⟩ := vouched_save hK hneeds
      by_cases hsame : row.id = w.row.id
      · have hnew : row = LoadedWorkspace.toRow w := by
          rw [upsert_of_mem (o := LoadedWorkspace.toRow w) hold holdid.symm] at hrow
          rcases mem_replace.mp hrow with ⟨hnew, -⟩ | ⟨-, hne⟩
          · exact hnew
          · exact absurd hsame hne
        rw [hsame, hnew]
        exact ⟨old, hold, holdid, hrows old hold holdid⟩
      · exact ⟨row, mem_of_mem_upsert_ne hrow hsame, rfl, rfl⟩
  | saveMember placed => exact ⟨row, hrow, rfl, rfl⟩
  | remove id => exact ⟨row, List.mem_of_mem_filter hrow, rfl, rfl⟩

theorem vouched_step (pg : Postgres) (hK : ∀ x, K x → Vouched h x)
    (hneeds : apiLearning.needs K op) (hkeep : keepsRows h op = true) {x : Known}
    (hx : Vouched h x) : Vouched (historyExec pg ω op h).1 x := by
  have hstep := apiExec_workspaces pg (h.fresh ω) op h.state
  have hissue : ∀ {id}, id ∈ h.issued → id ∈ (historyExec pg ω op h).1.issued :=
    fun hid => List.mem_cons_of_mem _ hid
  cases x with
  | task t => trivial
  | workspace w =>
      refine ⟨hissue hx.1, ?_⟩
      intro row hrow hid
      obtain ⟨old, hold, holdid, howner⟩ :=
        owners_stay hK hneeds hkeep hstep hrow (hid ▸ hx.1)
      rw [← howner]
      exact hx.2 old hold (holdid.trans hid)
  | seen id => exact hissue hx
  | stranger w u =>
      refine ⟨hissue hx.1, ?_⟩
      intro row hrow hid
      obtain ⟨old, hold, holdid, howner⟩ :=
        owners_stay hK hneeds hkeep hstep hrow (hid ▸ hx.1)
      rw [← howner]
      exact hx.2 old hold (holdid.trans hid)

/-- What a step teaches is true. -/
theorem vouched_learns (hst : Staffed h) (hK : ∀ x, K x → Vouched h x) {x : Known}
    (hx : Taught K h.state x) : Vouched h x := by
  cases hx with
  | cachedTask hit => trivial
  | storedTask found => trivial
  | cachedWorkspace hit => exact hst.cached _ _ hit
  | cachedId hit => exact hst.byId _ _ hit
  | @storedWorkspace row stored =>
      refine ⟨hst.issued row stored, ?_⟩
      intro row' hrow' hid
      rw [hst.ids.eq_of_key hrow' stored hid]
      show row.ownerId = (LoadedWorkspace.toRow ⟨row, findUser h.state.db row.ownerId⟩).ownerId
      unfold LoadedWorkspace.toRow
      cases hu : findUser h.state.db row.ownerId with
      | none => rfl
      | some u => exact (findUser_id hu).symm
  | storedId stored => exact hst.issued _ stored
  | @noMember w u seen absent =>
      refine ⟨hK _ seen, ?_⟩
      rintro row hrow rfl rfl
      -- the owner is a member
      exact lookup_eq_none.mp absent _ (hst.admins row hrow) rfl

/-- Both tables after a step. -/
theorem Staffed.tables_step (hst : Staffed h) (hK : ∀ x, K x → Vouched h x)
    (hneeds : apiLearning.needs K op) (hkeep : keepsRows h op = true)
    {ws : List Workspace} {ms : List WorkspaceMember}
    (hstep : WorkspaceStep (h.fresh ω) h.state op ws ms) :
    RowTable.Unique Workspace.id ws ∧ (∀ w ∈ ws, w.id ∈ ω.newId :: h.issued) ∧
      (∀ w ∈ ws, (⟨w.id, w.ownerId, .admin⟩ : WorkspaceMember) ∈ ms) ∧
      ∀ m ∈ ms, ∃ w ∈ ws, w.id = m.workspaceId := by
  have hissued : ∀ w ∈ h.state.db.workspaces, w.id ∈ ω.newId :: h.issued :=
    fun w hw => List.mem_cons_of_mem _ (hst.issued w hw)
  cases hstep with
  | same op => exact ⟨hst.ids, hissued, hst.admins, hst.placed⟩
  | @insert name slug ownerId named =>
      obtain ⟨hω, hfresh⟩ := fresh_newId named
      have hother : ∀ w ∈ h.state.db.workspaces, w.id ≠ (h.fresh ω).newId := by
        intro w hw heq
        exact hfresh (hω ▸ heq ▸ hst.issued w hw)
      refine ⟨hst.ids.append (lookup_eq_none.mpr hother), ?_, ?_, ?_⟩
      · intro w hw
        rcases List.mem_append.mp hw with hw | hw
        · exact hissued w hw
        · rw [List.mem_singleton.mp hw]
          exact List.mem_cons.mpr (Or.inl hω)
      · intro w hw
        rcases List.mem_append.mp hw with hw | hw
        · refine mem_upsert_of_ne (hst.admins w hw) ?_
          intro hkey
          exact hother w hw (congrArg Prod.fst hkey)
        · rw [List.mem_singleton.mp hw]
          exact mem_upsert_self _ _
      · intro m hm
        by_cases hkey : memberKey m = ((h.fresh ω).newId, ownerId)
        · exact ⟨_, List.mem_append_right _ (List.mem_singleton.mpr rfl),
            (congrArg Prod.fst hkey).symm⟩
        · obtain ⟨w, hw, hwm⟩ := hst.placed m (mem_of_mem_upsert_ne hm hkey)
          exact ⟨w, List.mem_append_left _ hw, hwm⟩
  | @save w accepted =>
      obtain ⟨old, hold, holdid⟩ := save_found hkeep accepted
      obtain ⟨-, hrows⟩ := vouched_save hK hneeds
      rw [upsert_of_mem (o := LoadedWorkspace.toRow w) hold holdid.symm]
      refine ⟨hst.ids.replace _, ?_, ?_, ?_⟩
      · intro row hrow
        rcases mem_replace.mp hrow with ⟨rfl, -⟩ | ⟨hrow, -⟩
        · show w.row.id ∈ _
          rw [← holdid]
          exact hissued old hold
        · exact hissued row hrow
      · intro row hrow
        rcases mem_replace.mp hrow with ⟨rfl, -⟩ | ⟨hrow, -⟩
        · -- the id and the owner are those of the row that was there
          rw [← hrows old hold holdid]
          show (⟨w.row.id, old.ownerId, .admin⟩ : WorkspaceMember) ∈ _
          rw [← holdid]
          exact hst.admins old hold
        · exact hst.admins row hrow
      · intro m hm
        obtain ⟨row, hrow, hrm⟩ := hst.placed m hm
        by_cases hsame : row.id = w.row.id
        · exact ⟨LoadedWorkspace.toRow w, mem_replace.mpr (Or.inl ⟨rfl, row, hrow, hsame⟩),
            hsame.symm.trans hrm⟩
        · exact ⟨row, mem_replace.mpr (Or.inr ⟨hrow, hsame⟩), hrm⟩
  | @saveMember m placed =>
      obtain ⟨-, hstranger⟩ := hK _ hneeds
      refine ⟨hst.ids, hissued, ?_, ?_⟩
      · intro w hw
        refine mem_upsert_of_ne (hst.admins w hw) ?_
        intro hkey
        exact hstranger w hw (congrArg Prod.fst hkey) (congrArg Prod.snd hkey)
      · intro m' hm'
        by_cases hkey : memberKey m' = memberKey m
        · obtain ⟨w, hw, hwm⟩ := placed
          exact ⟨w, hw, hwm.trans (congrArg Prod.fst hkey).symm⟩
        · exact hst.placed m' (mem_of_mem_upsert_ne hm' hkey)
  | remove id =>
      refine ⟨hst.ids.filter _, ?_, ?_, ?_⟩
      · exact fun w hw => hissued w (List.mem_of_mem_filter hw)
      · intro w hw
        obtain ⟨hw, hne⟩ := List.mem_filter.mp hw
        exact List.mem_filter.mpr ⟨hst.admins w hw, hne⟩
      · intro m hm
        obtain ⟨hm, hne⟩ := List.mem_filter.mp hm
        obtain ⟨w, hw, hwm⟩ := hst.placed m hm
        refine ⟨w, List.mem_filter.mpr ⟨hw, ?_⟩, hwm⟩
        rw [hwm]
        exact hne

theorem staffed_step (pg : Postgres) (hst : Staffed h) (hK : ∀ x, K x → Vouched h x)
    (hneeds : apiLearning.needs K op) (hkeep : keepsRows h op = true) :
    Staffed (historyExec pg ω op h).1 := by
  obtain ⟨hids, hissued, hadmins, hplaced⟩ :=
    hst.tables_step hK hneeds hkeep (apiExec_workspaces pg (h.fresh ω) op h.state)
  refine ⟨hids, hissued, hadmins, hplaced, ?_, ?_⟩
  · intro k w hw
    refine vouched_step pg hK hneeds hkeep ?_
    rcases apiExec_cache pg hw with hw | ⟨ttl, rfl⟩
    · exact hst.cached k w hw
    · exact hK _ hneeds.1
  · intro id w hw
    refine List.mem_cons_of_mem _ ?_
    rcases apiExec_cache pg hw with hw | ⟨ttl, rfl⟩
    · exact hst.byId id w hw
    · exact hK _ (hneeds.2 id rfl)

end Step

theorem staffed_sound (pg : Postgres) :
    Sound (historyExec pg) apiLearning Vouched Staffed fun h op => keepsRows h op = true := by
  constructor
  intro ω op h K hst hK hneeds hkeep
  refine ⟨staffed_step pg hst hK hneeds hkeep, ?_, ?_⟩
  · exact fun x hx => vouched_step pg hK hneeds hkeep hx
  · exact fun x hx => vouched_step pg hK hneeds hkeep (vouched_learns hst hK (taught hx))

/-- A workspace that is brought back has no administrator. -/
theorem brought_back_unadministered (pg : Postgres) {h : ApiHistory} (hst : Staffed h)
    (ω : Choice) {op : ApiOp} (hback : keepsRows h op = false) :
    ¬ Administered (historyExec pg ω op h).1.state.db := by
  cases op with
  | saveWorkspace w =>
      have hbring : bringsBack h.state.db w = true := by simpa [keepsRows] using hback
      unfold bringsBack at hbring
      rw [Bool.and_eq_true, Option.isNone_iff_eq_none] at hbring
      obtain ⟨hgone, haccept⟩ := hbring
      rcases saveWorkspace_cases h.state.db w with ⟨hno, -⟩ | ⟨-, hsave⟩
      · rw [hno] at haccept
        cases haccept
      · show ¬ Administered (commit (h.state.wait (h.fresh ω)) (saveWorkspace h.state.db w)).1.db
        rw [hsave]
        intro hadmin
        obtain ⟨row, hrow, hid⟩ :=
          hst.placed _ (hadmin (LoadedWorkspace.toRow w) (mem_upsert_self _ _))
        exact lookup_eq_none.mp hgone row hrow hid
  | _ => cases hback

/-! ## Runs -/

/-- A platform without workspaces. -/
structure NoWorkspaces (h : ApiHistory) : Prop where
  workspaces : h.state.db.workspaces = []
  members : h.state.db.members = []
  cache : ∀ k w, h.state.cache k ≠ some (.workspace w)

theorem NoWorkspaces.staffed {h : ApiHistory} (hn : NoWorkspaces h) : Staffed h where
  ids := by
    rw [hn.workspaces]
    exact List.nodup_nil
  issued := by
    rw [hn.workspaces]
    exact fun w hw => absurd hw List.not_mem_nil
  admins := by
    unfold Administered
    rw [hn.workspaces]
    exact fun w hw => absurd hw List.not_mem_nil
  placed := by
    rw [hn.members]
    exact fun m hm => absurd hm List.not_mem_nil
  cached := fun k w hw => absurd hw (hn.cache k w)
  byId := fun id w hw => absurd hw (hn.cache _ w)

theorem staffed_run (pg : Postgres) {h : ApiHistory} (hn : NoWorkspaces h)
    (calls : List ApiCall) {schedule : List (Nat × Choice)}
    (hkeep : Meets (historyExec pg) (OnOp fun h op => keepsRows h op = true)
      (callPool h calls) schedule) :
    Staffed (run (historyExec pg) (callPool h calls) schedule).shared := by
  refine (staffed_sound pg).run ?_ hkeep hn.staffed
  intro p hp
  obtain ⟨c, -, rfl⟩ := List.mem_map.mp hp
  exact call_informed c _

/-- **Workspaces and their administrators.**  Every state of a run has an administrator
    in every workspace if and only if no step of the run saves a workspace that has been
    deleted. -/
theorem workspaces_administered_iff (pg : Postgres) (h : ApiHistory) (hn : NoWorkspaces h)
    (calls : List ApiCall) (schedule : List (Nat × Choice)) :
    (∀ taken rest, schedule = taken ++ rest →
        Administered (run (historyExec pg) (callPool h calls) taken).shared.state.db) ↔
      Meets (historyExec pg) (OnOp fun h op => keepsRows h op = true) (callPool h calls)
        schedule := by
  constructor
  · intro hall
    induction schedule using List.reverseRecOn with
    | nil => trivial
    | append_singleton taken last ih =>
        obtain ⟨i, ω⟩ := last
        have htaken := ih fun l₁ l₂ hl => hall l₁ (l₂ ++ [(i, ω)]) (by rw [hl]; simp)
        refine (meets_append _ _ _ _ _).mpr ⟨htaken, ?_, trivial⟩
        intro op k hi
        cases hkeep : keepsRows (run (historyExec pg) (callPool h calls) taken).shared op with
        | true => rfl
        | false =>
            -- the state after this step is one of those of the run
            have hnext := hall (taken ++ [(i, ω)]) [] (by simp)
            rw [run_append, run_cons, run_nil, step_await _ hi] at hnext
            exact absurd hnext
              (brought_back_unadministered pg (staffed_run pg hn calls htaken) ω hkeep)
  · rintro hmeets taken rest rfl
    exact (staffed_run pg hn calls ((meets_append _ _ _ _ _).mp hmeets).1).admins

theorem emptyPlatform_noWorkspaces : NoWorkspaces emptyPlatform :=
  ⟨rfl, rfl, fun _ _ hhit => by cases hhit⟩

/-- A workspace is made, renamed and deleted. -/
def renameAndDelete : List ApiCall :=
  [.createWorkspace "a" "Work" (some "work"), .updateWorkspace "1" "a" "Renamed",
    .deleteWorkspace "1" "a"]

/-- The calls move in this order; ids are generated one after the other. -/
def inOrder (order : List Nat) : List (Nat × Choice) :=
  order.zipIdx.map fun (i, n) => (i, ⟨0, [], toString n⟩)

/-- One call after the other. -/
theorem administered_one_by_one :
    Administered (run (historyExec plainPostgres) (callPool emptyPlatform renameAndDelete)
      (inOrder [0, 0, 1, 1, 1, 1, 1, 1, 2, 2, 2, 2, 2])).shared.state.db :=
  (workspaces_administered_iff plainPostgres emptyPlatform emptyPlatform_noWorkspaces
    renameAndDelete (inOrder [0, 0, 1, 1, 1, 1, 1, 1, 2, 2, 2, 2, 2])).mpr (by decide)
      (inOrder [0, 0, 1, 1, 1, 1, 1, 1, 2, 2, 2, 2, 2]) [] (List.append_nil _).symm

/-- The deletion between the read and the write of the update. -/
theorem unadministered_workspace :
    ¬ ∀ (pg : Postgres) (h : ApiHistory) (calls : List ApiCall)
      (schedule : List (Nat × Choice)), NoWorkspaces h →
        Administered (run (historyExec pg) (callPool h calls) schedule).shared.state.db := by
  intro hall
  exact absurd (hall plainPostgres emptyPlatform renameAndDelete
    (inOrder [0, 0, 1, 1, 1, 2, 2, 1]) emptyPlatform_noWorkspaces) (by decide)

end PlatformApi
