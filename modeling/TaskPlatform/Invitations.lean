import TaskPlatform.WorkspaceAdmins
import TaskPlatform.TaskRaces

/-! # Invitations of one user at the same time

    `inviteMember` looks for the membership, and saves one if it finds none.  Another
    invitation may have saved its own in between, and then the save is an update: both
    calls return, and the role is that of the last one.  A run of invitations creates the
    membership once exactly as long as no save finds a row (`membership_created_once_iff`). -/

namespace PlatformApi

open AsyncProgram Interleaving PlatformEntities PlatformTasks RowTable

variable (pg : Postgres)

/-! ## What the steps do -/

/-- The operations of an invitation besides its save. -/
def Asks : ApiOp → Prop
  | .task _ => True
  | .findWorkspaceById _ => True
  | .findUserByEmail _ => True
  | .findMember _ _ => True
  | .findUserById _ => True
  | .sendMemberJoined _ _ _ => True
  | .auditLog _ _ _ => True
  | _ => False

/-- They leave the users, the workspaces and the memberships as they are. -/
theorem Asks.same {op : ApiOp} (h : Asks op) (ω : Choice) (s : TaskState) :
    (apiExec pg ω op s).1.db.users = s.db.users ∧
      (apiExec pg ω op s).1.db.workspaces = s.db.workspaces ∧
      (apiExec pg ω op s).1.db.members = s.db.members := by
  cases op with
  | task op =>
      obtain ⟨tasks, notifications, hdb⟩ := exec_frame pg.text ω op s
      show (exec pg.text ω op s).1.db.users = s.db.users ∧
        (exec pg.text ω op s).1.db.workspaces = s.db.workspaces ∧
        (exec pg.text ω op s).1.db.members = s.db.members
      rw [hdb]
      exact ⟨rfl, rfl, rfl⟩
  | findWorkspaceById id => exact ⟨rfl, rfl, rfl⟩
  | findUserByEmail email => exact ⟨rfl, rfl, rfl⟩
  | findMember w u => exact ⟨rfl, rfl, rfl⟩
  | findUserById id => exact ⟨rfl, rfl, rfl⟩
  | sendMemberJoined w role user => exact ⟨rfl, rfl, rfl⟩
  | auditLog action u payload => exact ⟨rfl, rfl, rfl⟩
  | _ => exact absurd h not_false

theorem findMember_congr {db db' : Database} (h : db'.members = db.members) (w u : String) :
    findMember db' w u = findMember db w u := by
  show lookup memberKey (w, u) db'.members = lookup memberKey (w, u) db.members
  rw [h]

theorem asks_liftTask {α : Type} (p : TaskProg α) : OnlyIssues Asks (liftTask p) := by
  induction p with
  | done a => trivial
  | fail e => trivial
  | await op k ih => exact ⟨trivial, ih⟩

theorem neverFails_liftTask {α : Type} {C : TaskState → Prop} {p : TaskProg α}
    (h : NeverFails (exec pg.text) (fun s _ => C s) p) :
    NeverFails (apiExec pg) (fun s _ => C s) (liftTask p) := by
  induction p with
  | done a => trivial
  | fail e => exact nomatch h
  | await op k ih => exact fun ω s hs => ih _ (h ω s hs)

/-- Workspace and user of the membership exist. -/
def Referred (db : Database) (m : WorkspaceMember) : Prop :=
  (∃ w ∈ db.workspaces, w.id = m.workspaceId) ∧ ∃ u ∈ db.users, u.id = m.userId

/-- A save is rejected, or it writes the row and returns it. -/
theorem exec_saveMember_cases (ω : Choice) (m : WorkspaceMember) (s : TaskState) :
    (¬ Referred s.db m ∧
        apiExec pg ω (.saveMember m) s = (s.wait ω, .error .queryFailed)) ∨
      Referred s.db m ∧ apiExec pg ω (.saveMember m) s
        = ({ s.wait ω with db := { s.db with members := upsert memberKey m s.db.members } },
            .ok m) := by
  have hchecked : (s.db.workspaces.any (fun w => w.id = m.workspaceId)
      && s.db.users.any (fun u => u.id = m.userId)) = true ↔ Referred s.db m := by
    simp only [Referred, Bool.and_eq_true, List.any_eq_true, decide_eq_true_eq]
  by_cases hr : Referred s.db m
  · refine Or.inr ⟨hr, ?_⟩
    show commit (s.wait ω) (saveMember s.db m) = _
    rw [saveMember, if_pos (hchecked.mpr hr)]
    rfl
  · refine Or.inl ⟨hr, ?_⟩
    show commit (s.wait ω) (saveMember s.db m) = _
    rw [saveMember, if_neg (fun h => hr (hchecked.mp h))]
    rfl

/-- Users and workspaces are the same, and no membership is gone. -/
structure MoreMembers (s s' : TaskState) : Prop where
  users : s'.db.users = s.db.users
  workspaces : s'.db.workspaces = s.db.workspaces
  members : ∀ w u, (findMember s.db w u).isSome = true → (findMember s'.db w u).isSome = true

theorem MoreMembers.refl (s : TaskState) : MoreMembers s s := ⟨rfl, rfl, fun _ _ h => h⟩

theorem MoreMembers.trans {s s' s'' : TaskState} (h : MoreMembers s s')
    (h' : MoreMembers s' s'') : MoreMembers s s'' where
  users := h'.users.trans h.users
  workspaces := h'.workspaces.trans h.workspaces
  members w u hm := h'.members w u (h.members w u hm)

theorem MoreMembers.referred {s s' : TaskState} (h : MoreMembers s s') {m : WorkspaceMember} :
    Referred s'.db m ↔ Referred s.db m := by
  unfold Referred
  rw [h.users, h.workspaces]

theorem Asks.moreMembers {op : ApiOp} (h : Asks op) (ω : Choice) (s : TaskState) :
    MoreMembers s (apiExec pg ω op s).1 := by
  obtain ⟨husers, hworkspaces, hmembers⟩ := h.same pg ω s
  refine ⟨husers, hworkspaces, ?_⟩
  intro w u hm
  rw [findMember_congr hmembers]
  exact hm

theorem findMember_upsert_self {db : Database} (m : WorkspaceMember) :
    findMember { db with members := upsert memberKey m db.members } m.workspaceId m.userId
      = some m :=
  lookup_upsert_self m db.members

theorem saveMember_moreMembers (ω : Choice) (m : WorkspaceMember) (s : TaskState) :
    MoreMembers s (apiExec pg ω (.saveMember m) s).1 := by
  rcases exec_saveMember_cases pg ω m s with ⟨-, h⟩ | ⟨-, h⟩
  · rw [h]
    exact ⟨rfl, rfl, fun _ _ hm => hm⟩
  · rw [h]
    refine ⟨rfl, rfl, ?_⟩
    intro w u hm
    show (lookup memberKey (w, u) (upsert memberKey m s.db.members)).isSome = true
    by_cases hkey : (w, u) = memberKey m
    · rw [hkey, lookup_upsert_self]
      rfl
    · rw [lookup_upsert_ne hkey]
      exact hm

/-! ## What an invitation sees to -/

/-- The user whom the calls invite. -/
def invitee (s : TaskState) (email : String) : Option String :=
  (s.db.users.find? fun u => u.email = email).map User.id

theorem invitee_findUser {s : TaskState} {email userId : String}
    (h : invitee s email = some userId) : ∃ view, findUser s.db userId = some view := by
  obtain ⟨user, huser, rfl⟩ := Option.map_eq_some_iff.mp h
  have hmem := List.mem_of_find?_eq_some huser
  cases hfound : s.db.users.find? (fun u => u.id = user.id) with
  | none => exact absurd (List.find?_eq_none.mp hfound user hmem) (by simp)
  | some u => exact ⟨u.view, by unfold findUser; rw [hfound]; rfl⟩

/-- The rest of an invitation whose row is stored: it announces the member, and returns
    the row as long as the users stay. -/
structure Announces (s : TaskState) (m : WorkspaceMember) (p : ApiProg WorkspaceMember) :
    Prop where
  asks : OnlyIssues Asks p
  returns : Returns (fun a => a = m) p
  succeeds : NeverFails (apiExec pg) (fun s' _ => s'.db.users = s.db.users) p

/-- A save is that of a member for the user of this address, who was none when the calls
    began; if it is rejected the call throws. -/
structure SaveDuty (s : TaskState) (w email : String) (m : WorkspaceMember)
    (k : Except HttpError WorkspaceMember → ApiProg WorkspaceMember) : Prop where
  workspace : m.workspaceId = w
  user : invitee s email = some m.userId
  absent : findMember s.db w m.userId = none
  rejected : ∀ e, (k (.error e)).threw = true
  saved : ∀ a, Announces pg s a (k (.ok a))

/-- What an invitation still has to do, by the operation it waits for. -/
def InviteDuty (s : TaskState) (w email : String) : ApiProg WorkspaceMember → Prop
  | .await (.saveMember m) k => SaveDuty pg s w email m k
  | .await op _ => Asks op
  | _ => True

theorem inviteDuty_of_asks {s : TaskState} {w email : String} {op : ApiOp}
    {k : op.Res → ApiProg WorkspaceMember} (h : Asks op) :
    InviteDuty pg s w email (.await op k) := by
  cases op with
  | saveMember m => exact absurd h not_false
  | _ => exact h

theorem InviteDuty.asks_or_saves {s : TaskState} {w email : String} {op : ApiOp}
    {k : op.Res → ApiProg WorkspaceMember} (h : InviteDuty pg s w email (.await op k)) :
    Asks op ∨ ∃ m, op = .saveMember m := by
  cases op with
  | saveMember m => exact Or.inr ⟨m, rfl⟩
  | _ => exact Or.inl h

/-- An operation of this kind loses no member. -/
theorem InviteDuty.moreMembers {s : TaskState} {w email : String} {op : ApiOp}
    {k : op.Res → ApiProg WorkspaceMember} (h : InviteDuty pg s w email (.await op k))
    (ω : Choice) (s' : TaskState) : MoreMembers s' (apiExec pg ω op s').1 := by
  rcases h.asks_or_saves pg with hasks | ⟨m, rfl⟩
  · exact hasks.moreMembers pg ω s'
  · exact saveMember_moreMembers pg ω m s'

/-- The bargain of invitations that begin in `s`. -/
def invitation (s : TaskState) (w email : String) :
    Discipline (apiExec pg) HttpError WorkspaceMember where
  inv := MoreMembers s
  rely _ _ := True
  refl _ := trivial
  trans _ _ _ _ _ := trivial
  granted _ _ := True
  owes _ := InviteDuty pg s w email
  keep ω _ _ s' hinv howes _ := ⟨hinv.trans (howes.moreMembers pg ω s'), trivial⟩

section Walk

variable {pg} {s : TaskState} {w email : String}

/-- A program that only asks keeps its side of the bargain. -/
theorem follows_of_asks {p : ApiProg WorkspaceMember} (h : OnlyIssues Asks p)
    (s' : TaskState) : Follows (invitation pg s w email) p s' :=
  h.follows (fun _ _ _ => inviteDuty_of_asks pg) (fun _ _ => trivial) (fun _ _ => trivial) s'

theorem follows_of_duty {m : WorkspaceMember}
    {k : Except HttpError WorkspaceMember → ApiProg WorkspaceMember}
    (h : SaveDuty pg s w email m k) (s' : TaskState) :
    Follows (invitation pg s w email) (.await (.saveMember m) k) s' := by
  intro s₁ _ _
  refine ⟨h, fun _ ω => ?_⟩
  cases (apiExec pg ω (.saveMember m) s₁).2 with
  | ok a => exact follows_of_asks (h.saved a).asks _
  | error e =>
      have hthrew := h.rejected e
      cases hk : k (.error e) with
      | done a => rw [hk] at hthrew; exact nomatch hthrew
      | fail e' => exact fun _ _ _ => trivial
      | await op k' => rw [hk] at hthrew; exact nomatch hthrew

/-- A user who exists can be notified. -/
theorem notified_neverFails {userId : String} {view : UserView}
    (hview : findUser s.db userId = some view) (type title message : String) :
    NeverFails (apiExec pg) (fun s' _ => s'.db.users = s.db.users)
      (liftTask (createAndSendNotification userId type title message)) := by
  obtain ⟨user, huser, -⟩ := Option.map_eq_some_iff.mp hview
  refine neverFails_liftTask pg (notification_neverFails ?_ type title message)
  intro s' _ _ _ hs'
  rw [hs']
  exact ⟨user, List.mem_of_find?_eq_some huser, by simpa using List.find?_some huser⟩

end Walk

/-- Every invitation of that user keeps its side of the bargain. -/
theorem inviteMember_follows (s : TaskState) (w email performerId : String) (role : Role) :
    Follows (invitation pg s w email) (inviteMember w performerId email role) s := by
  refine (onlyIssues_findById (F := Asks) (fun _ => trivial) (fun _ _ _ => trivial)
    (fun _ => trivial) w).follows_bind (fun _ _ _ => inviteDuty_of_asks pg)
    (fun _ _ => trivial) (fun _ _ => trivial) s ?_
  intro workspace s₁ _ s₂ hs₂ _
  refine ⟨trivial, fun _ ω₂ => ?_⟩
  cases hfound : (apiExec pg ω₂ (.findUserByEmail email) s₂).2 with
  | none => exact fun _ _ _ => trivial
  | some user =>
      have huser : invitee s email = some user.id := by
        obtain ⟨row, hrow, rfl⟩ := Option.map_eq_some_iff.mp hfound
        unfold invitee
        rw [← hs₂.users, hrow]
        rfl
      obtain ⟨view, hview⟩ := invitee_findUser huser
      intro s₃ hs₃ _
      refine ⟨trivial, fun _ ω₃ => ?_⟩
      cases hmember : (apiExec pg ω₃ (.findMember w user.id) s₃).2 with
      | some m => exact fun _ _ _ => trivial
      | none =>
          refine follows_of_duty ?_ _
          refine ⟨rfl, huser, ?_, fun _ => rfl, ?_⟩
          · -- whoever is no member now was none at the start
            cases hstart : findMember s.db w user.id with
            | none => rfl
            | some m =>
                have hkept := hs₃.members w user.id (by rw [hstart]; rfl)
                rw [show findMember s₃.db w user.id = none from hmember] at hkept
                exact nomatch hkept
          · intro a
            refine ⟨⟨trivial, fun invited => ?_⟩, ?_, ?_⟩
            · refine (onlyIssues_orNotFound _ _).bind fun _ => ⟨trivial, fun _ => ?_⟩
              exact (asks_liftTask _).bind fun _ => ⟨trivial, fun _ => trivial⟩
            · show Returns (fun x => x = a) (ask (.findUserById user.id) >>= _)
              exact Returns.bind fun _ => Returns.bind fun _ => Returns.bind fun _ =>
                Returns.bind fun _ => Returns.bind fun _ => rfl
            · intro ω s' hs'
              have hanswer : (apiExec pg ω (.findUserById user.id) s').2 = some view := by
                show findUser s'.db user.id = some view
                unfold findUser
                rw [hs']
                exact hview
              rw [hanswer]
              intro _ _ _
              exact (notified_neverFails hview _ _ _).bind fun _ _ _ _ => trivial

/-- The save of an invitation. -/
def SavesMember : ApiOp → Prop
  | .saveMember _ => True
  | _ => False

/-- An invitation does not return without its save. -/
theorem inviteMember_mustIssue (w performerId email : String) (role : Role) :
    MustIssue SavesMember (inviteMember w performerId email role) := by
  refine MustIssue.bind fun workspace => MustIssue.bind fun found => MustIssue.bind fun user => ?_
  refine MustIssue.bind fun existing => ?_
  cases existing with
  | some m => trivial
  | none => exact Or.inl trivial

/-- Saves are of members with this role. -/
def SavesRole (role : Role) : ApiOp → Prop
  | .saveMember m => m.role = role
  | _ => True

/-- An invitation saves the role that it was given. -/
theorem inviteMember_savesRole (w performerId email : String) (role : Role) :
    OnlyIssues (SavesRole role) (inviteMember w performerId email role) := by
  have hasks : ∀ op, Asks op → SavesRole role op := by
    intro op h
    cases op with
    | saveMember m => exact absurd h not_false
    | _ => trivial
  refine (onlyIssues_findById (fun _ => trivial) (fun _ _ _ => trivial)
    (fun _ => trivial) w).bind fun workspace => ⟨trivial, fun found => ?_⟩
  refine (onlyIssues_orNotFound _ _).bind fun user => ⟨trivial, fun existing => ?_⟩
  cases existing with
  | some m => trivial
  | none =>
      refine ⟨rfl, fun answer => (onlyIssues_orThrow _).bind fun saved =>
        ⟨trivial, fun _ => ?_⟩⟩
      refine (onlyIssues_orNotFound _ _).bind fun _ => ⟨trivial, fun _ => ?_⟩
      exact ((asks_liftTask _).mono hasks).bind fun _ => ⟨trivial, fun _ => trivial⟩

/-! ## Any number of invitations -/

/-- One call for the user: who makes it, and the role. -/
structure Invitation where
  performerId : String
  role : Role
  deriving DecidableEq, Repr

/-- The calls about to begin. -/
def inviting (s : TaskState) (w email : String) (invitations : List Invitation) :
    Pool ApiOp ApiOp.Res HttpError WorkspaceMember TaskState :=
  ⟨s, invitations.map fun i => inviteMember w i.performerId email i.role⟩

/-- The calls and the state after a schedule. -/
abbrev invited (s : TaskState) (w email : String) (invitations : List Invitation)
    (l : List (Nat × Choice)) : Pool ApiOp ApiOp.Res HttpError WorkspaceMember TaskState :=
  run (apiExec pg) (inviting s w email invitations) l

/-- A membership is saved where none is stored. -/
def firstSave (s : TaskState) : ApiOp → Bool
  | .saveMember m => (findMember s.db m.workspaceId m.userId).isNone
  | _ => true

/-- What the invitations are to make of the memberships.

    Where a call has returned, every other call that has come to its end threw; the
    stored row is the one that it returned, with the role that it was given; and a row
    once stored stays as it is. -/
structure CreatedOnce (s : TaskState) (w email : String) (invitations : List Invitation)
    (l : List (Nat × Choice)) : Prop where
  one : ∀ (i j : Nat) (p q : ApiProg WorkspaceMember), i ≠ j →
    (invited pg s w email invitations l).calls[i]? = some p →
    (invited pg s w email invitations l).calls[j]? = some q →
    p.returned = true → q.finished = true → q.threw = true
  stored : ∀ (i : Nat) (inv : Invitation) (m : WorkspaceMember), invitations[i]? = some inv →
    (invited pg s w email invitations l).calls[i]? = some (.done m) →
    m.role = inv.role ∧
      findMember (invited pg s w email invitations l).shared.db w m.userId = some m
  kept : ∀ (l₁ l₂ : List (Nat × Choice)) (w' u : String) (m : WorkspaceMember),
    l = l₁ ++ l₂ →
    findMember (invited pg s w email invitations l₁).shared.db w' u = some m →
    findMember (invited pg s w email invitations l).shared.db w' u = some m

section Runs

variable {pg} {s : TaskState} {w email : String} {invitations : List Invitation}

theorem inviting_call {i : Nat} {p : ApiProg WorkspaceMember}
    (h : (inviting s w email invitations).calls[i]? = some p) :
    ∃ inv, invitations[i]? = some inv ∧ p = inviteMember w inv.performerId email inv.role := by
  have h' : (invitations.map fun i => inviteMember w i.performerId email i.role)[i]? = some p := h
  rw [List.getElem?_map] at h'
  obtain ⟨inv, hinv, hp⟩ := Option.map_eq_some_iff.mp h'
  exact ⟨inv, hinv, hp.symm⟩

theorem inviting_orderly :
    Orderly (invitation pg s w email) (inviting s w email invitations) := by
  refine ⟨MoreMembers.refl s, ?_⟩
  intro p hp
  obtain ⟨i, hi⟩ := List.mem_iff_getElem?.mp hp
  obtain ⟨inv, -, rfl⟩ := inviting_call hi
  exact inviteMember_follows pg s w email inv.performerId inv.role

theorem invited_orderly (l : List (Nat × Choice)) :
    Orderly (invitation pg s w email) (invited pg s w email invitations l) :=
  (follows_run inviting_orderly
    (meets_of_forall (apiExec pg) (fun _ _ _ _ _ => trivial) _ l)).1

theorem invited_moreMembers (l : List (Nat × Choice)) :
    MoreMembers s (invited pg s w email invitations l).shared :=
  (invited_orderly l).inv

theorem invited_duty {l : List (Nat × Choice)} {i : Nat} {op : ApiOp}
    {k : op.Res → ApiProg WorkspaceMember}
    (h : (invited pg s w email invitations l).calls[i]? = some (.await op k)) :
    InviteDuty pg s w email (.await op k) :=
  ((invited_orderly l).follows _ (List.mem_of_getElem? h)).owes (invited_orderly l).inv

/-- What holds at the steps that follow. -/
theorem invited_meets (l₁ l₂ : List (Nat × Choice)) :
    Meets (apiExec pg) (OnOp fun s' op => MoreMembers s s' ∧
      ∃ k, InviteDuty pg s w email (.await op k)) (invited pg s w email invitations l₁) l₂ :=
  (invited_orderly l₁).meets (meets_of_forall (apiExec pg) (fun _ _ _ _ _ => trivial) _ l₂)

theorem invited_append (l₁ l₂ : List (Nat × Choice)) :
    invited pg s w email invitations (l₁ ++ l₂)
      = run (apiExec pg) (invited pg s w email invitations l₁) l₂ :=
  run_append (apiExec pg) _ l₁ l₂

theorem SaveDuty.referred {m : WorkspaceMember}
    {k : Except HttpError WorkspaceMember → ApiProg WorkspaceMember}
    (h : SaveDuty pg s w email m k) (hw : ∃ x ∈ s.db.workspaces, x.id = w) :
    Referred s.db m := by
  obtain ⟨user, huser, hid⟩ := Option.map_eq_some_iff.mp h.user
  refine ⟨?_, user, List.mem_of_find?_eq_some huser, hid⟩
  rw [h.workspace]
  exact hw

/-- A first save overwrites no row. -/
theorem firstSave_keeps {op : ApiOp} {k : op.Res → ApiProg WorkspaceMember} {s' : TaskState}
    (hfirst : firstSave s' op = true) (hduty : InviteDuty pg s w email (.await op k))
    (ω : Choice) {w' u : String} {m : WorkspaceMember}
    (hm : findMember s'.db w' u = some m) :
    findMember (apiExec pg ω op s').1.db w' u = some m := by
  rcases hduty.asks_or_saves pg with hasks | ⟨m', rfl⟩
  · obtain ⟨-, -, hmembers⟩ := hasks.same pg ω s'
    rw [findMember_congr hmembers]
    exact hm
  · have hnone : lookup memberKey (memberKey m') s'.db.members = none :=
      Option.isNone_iff_eq_none.mp hfirst
    rcases exec_saveMember_cases pg ω m' s' with ⟨-, h⟩ | ⟨-, h⟩
    · rw [h]
      exact hm
    · rw [h]
      show lookup memberKey (w', u) (upsert memberKey m' s'.db.members) = some m
      have hm' : lookup memberKey (w', u) s'.db.members = some m := hm
      have hkey : (w', u) ≠ memberKey m' := by
        intro hkey
        rw [hkey, hnone] at hm'
        exact nomatch hm'
      rw [lookup_upsert_ne hkey]
      exact hm'

/-- Where every save is a first one, a stored row stays as it is. -/
theorem member_kept {l₁ l₂ : List (Nat × Choice)}
    (hl : Meets (apiExec pg) (OnOp fun s op => firstSave s op = true)
      (inviting s w email invitations) (l₁ ++ l₂)) {w' u : String} {m : WorkspaceMember}
    (hm : findMember (invited pg s w email invitations l₁).shared.db w' u = some m) :
    findMember (invited pg s w email invitations (l₁ ++ l₂)).shared.db w' u = some m := by
  have hfirst := ((meets_append (apiExec pg) _ _ l₁ l₂).mp hl).2
  rw [invited_append]
  refine run_relation (apiExec pg)
    (R := fun a b => findMember a.db w' u = some m → findMember b.db w' u = some m)
    (fun _ h => h) (fun _ _ _ h h' hm => h' (h hm)) ?_
    (hfirst.and (apiExec pg) (invited_meets l₁ l₂)) hm
  rintro ω op s' ⟨hfirst, -, k, hduty⟩ hm
  exact firstSave_keeps hfirst hduty ω hm

/-- The step that saves. -/
theorem save_step {l : List (Nat × Choice)} {i : Nat} {m : WorkspaceMember}
    {k : Except HttpError WorkspaceMember → ApiProg WorkspaceMember}
    (hop : (invited pg s w email invitations l).calls[i]? = some (.await (.saveMember m) k))
    (ω : Choice) :
    (Referred s.db m ∧
        (invited pg s w email invitations (l ++ [(i, ω)])).calls[i]? = some (k (.ok m)) ∧
        findMember (invited pg s w email invitations (l ++ [(i, ω)])).shared.db w m.userId
          = some m) ∨
      ¬ Referred s.db m ∧
        (invited pg s w email invitations (l ++ [(i, ω)])).calls[i]?
          = some (k (.error .queryFailed)) ∧
        (invited pg s w email invitations (l ++ [(i, ω)])).shared.db
          = (invited pg s w email invitations l).shared.db := by
  have hduty : SaveDuty pg s w email m k := invited_duty hop
  have hnext := step_calls_self (apiExec pg) hop ω
  rw [invited_append, run_cons, run_nil]
  rcases exec_saveMember_cases pg ω m (invited pg s w email invitations l).shared with
    ⟨hno, h⟩ | ⟨href, h⟩
  · refine Or.inr ⟨fun href => hno ((invited_moreMembers l).referred.mpr href), ?_, ?_⟩
    · rw [hnext, h]
    · rw [step_await (apiExec pg) hop, h]
      rfl
  · refine Or.inl ⟨(invited_moreMembers l).referred.mp href, ?_, ?_⟩
    · rw [hnext, h]
    · rw [step_await (apiExec pg) hop, h, ← hduty.workspace]
      exact findMember_upsert_self m

/-- A call whose save went through announces the row, and does not throw. -/
theorem saved_run {l₁ l₂ : List (Nat × Choice)} {i : Nat} {m : WorkspaceMember}
    {k : Except HttpError WorkspaceMember → ApiProg WorkspaceMember}
    (hop : (invited pg s w email invitations l₁).calls[i]? = some (.await (.saveMember m) k))
    (href : Referred s.db m) (ω : Choice) {q : ApiProg WorkspaceMember}
    (hq : (invited pg s w email invitations (l₁ ++ (i, ω) :: l₂)).calls[i]? = some q) :
    OnlyIssues Asks q ∧ Returns (fun a => a = m) q ∧ ∀ e, q ≠ .fail e := by
  have hduty : SaveDuty pg s w email m k := invited_duty hop
  obtain ⟨hasks, hreturns, hsucceeds⟩ := hduty.saved m
  rw [List.append_cons, invited_append] at hq
  rcases save_step hop ω with ⟨-, hnext, -⟩ | ⟨hno, -⟩
  · refine ⟨keeps_run (apiExec pg) (fun _ _ h => h.2) hnext hasks hq,
      returns_run (apiExec pg) hnext hreturns hq, ?_⟩
    rintro e rfl
    refine hsucceeds.run hnext ?_ e hq
    exact (invited_meets (l₁ ++ [(i, ω)]) l₂).mono (apiExec pg) fun s' op h => h.1.users
  · exact absurd href hno

/-- A call that has returned saved the row that it returned. -/
theorem returned_saved {l : List (Nat × Choice)} {i : Nat} {m : WorkspaceMember}
    (h : (invited pg s w email invitations l).calls[i]? = some (.done m)) :
    ∃ l₁ ω l₂ k, l = l₁ ++ (i, ω) :: l₂ ∧
      (invited pg s w email invitations l₁).calls[i]? = some (.await (.saveMember m) k) ∧
      Referred s.db m := by
  obtain ⟨p, hp⟩ := run_calls_origin (apiExec pg) h
  obtain ⟨inv, -, rfl⟩ := inviting_call hp
  obtain ⟨l₁, ω, l₂, op, k, rfl, hop, hsave⟩ :=
    (inviteMember_mustIssue w inv.performerId email inv.role).issued hp h
  cases op with
  | saveMember a =>
      have hduty : SaveDuty pg s w email a k := invited_duty hop
      rcases save_step hop ω with ⟨href, -⟩ | ⟨-, hnext, -⟩
      · have hma : m = a := (saved_run hop href ω h).2.1
        subst hma
        exact ⟨l₁, ω, l₂, k, rfl, hop, href⟩
      · -- the save was rejected, and the call threw
        have hthrew := hduty.rejected .queryFailed
        rw [List.append_cons, invited_append, run_calls_finished (apiExec pg) hnext
          (Prog.finished_of_threw hthrew)] at h
        rw [Option.some.inj h] at hthrew
        exact nomatch hthrew
  | _ => exact absurd hsave not_false

/-- In a workspace that exists at most one of the calls returns. -/
theorem one_returns (hw : ∃ x ∈ s.db.workspaces, x.id = w) {l : List (Nat × Choice)}
    (hl : Meets (apiExec pg) (OnOp fun s op => firstSave s op = true)
      (inviting s w email invitations) l) :
    AtMostOneReturned (invited pg s w email invitations l) := by
  refine at_most_one_returns (P := SavesMember) (K := fun s' : TaskState =>
    ∃ u, invitee s email = some u ∧ (findMember s'.db w u).isSome = true)
    ?_ ?_ ?_ (hl.and (apiExec pg) (invited_meets [] l))
  · rintro ω op s' hsave ⟨hfirst, hinv, k, hduty⟩
    cases op with
    | saveMember m =>
        have hduty : SaveDuty pg s w email m k := hduty
        constructor
        · rintro ⟨u, hu, hm⟩
          rw [hduty.user] at hu
          have hnone : findMember s'.db m.workspaceId m.userId = none :=
            Option.isNone_iff_eq_none.mp hfirst
          rw [← Option.some.inj hu, ← hduty.workspace, hnone] at hm
          exact nomatch hm
        · refine ⟨m.userId, hduty.user, ?_⟩
          rcases exec_saveMember_cases pg ω m s' with ⟨hno, -⟩ | ⟨-, h⟩
          · exact absurd (hinv.referred.mpr (hduty.referred hw)) hno
          · rw [h, ← hduty.workspace, findMember_upsert_self]
            rfl
    | _ => exact absurd hsave not_false
  · rintro ω op s' ⟨-, -, k, hduty⟩ ⟨u, hu, hm⟩
    exact ⟨u, hu, (hduty.moreMembers pg ω s').members w u hm⟩
  · intro p hp
    obtain ⟨i, hi⟩ := List.mem_iff_getElem?.mp hp
    obtain ⟨inv, -, rfl⟩ := inviting_call hi
    exact inviteMember_mustIssue w inv.performerId email inv.role

theorem created_once {l : List (Nat × Choice)}
    (hl : Meets (apiExec pg) (OnOp fun s op => firstSave s op = true)
      (inviting s w email invitations) l) : CreatedOnce pg s w email invitations l where
  one := by
    intro i j p q hij hp hq hret hfin
    cases p with
    | done m =>
        obtain ⟨l₁, ω, l₂, k, -, hop, href⟩ := returned_saved hp
        have hduty : SaveDuty pg s w email m k := invited_duty hop
        have hw : ∃ x ∈ s.db.workspaces, x.id = w := hduty.workspace ▸ href.1
        cases q with
        | done m' => exact absurd (one_returns hw hl i j _ _ hp hq rfl rfl) hij
        | fail e => rfl
        | await op k' => exact nomatch hfin
    | fail e => exact nomatch hret
    | await op k => exact nomatch hret
  stored := by
    intro i inv m hinv hm
    obtain ⟨l₁, ω, l₂, k, rfl, hop, href⟩ := returned_saved hm
    have hcall : (inviting s w email invitations).calls[i]?
        = some (inviteMember w inv.performerId email inv.role) := by
      show (invitations.map _)[i]? = _
      rw [List.getElem?_map, hinv]
      rfl
    constructor
    · exact (keeps_run (apiExec pg) (fun _ _ h => h.2) hcall
        (inviteMember_savesRole w inv.performerId email inv.role) hop).1
    · rcases save_step hop ω with ⟨-, -, hrow⟩ | ⟨hno, -⟩
      · rw [List.append_cons] at hl ⊢
        exact member_kept hl hrow
      · exact absurd href hno
  kept := by
    rintro l₁ l₂ w' u m rfl hm
    exact member_kept hl hm

/-- A membership that is stored in between comes from another call. -/
theorem saved_before {l : List (Nat × Choice)} {u : String}
    (hstart : findMember s.db w u = none)
    (hrow : (findMember (invited pg s w email invitations l).shared.db w u).isSome = true) :
    ∃ l₁ i ω l₂ m k, l = l₁ ++ (i, ω) :: l₂ ∧ Referred s.db m ∧
      (invited pg s w email invitations l₁).calls[i]? = some (.await (.saveMember m) k) := by
  have hnone : ¬ (findMember (inviting s w email invitations).shared.db w u).isSome = true := by
    show ¬ (findMember s.db w u).isSome = true
    rw [hstart]
    exact Bool.false_ne_true
  obtain ⟨l₁, i, ω, l₂, rfl, hbefore, hafter⟩ := exists_flip (apiExec pg)
    (K := fun s' => (findMember s'.db w u).isSome = true) hnone hrow
  -- the step that brought the row was a save that went through
  rcases step_cases (apiExec pg) (invited pg s w email invitations l₁) i ω with
    hstay | ⟨op, k, hop, hmoved⟩
  · rw [hstay] at hafter
    exact absurd hafter hbefore
  · rcases (invited_duty hop).asks_or_saves pg with hasks | ⟨m, rfl⟩
    · obtain ⟨-, -, hmembers⟩ :=
        hasks.same pg ω (invited pg s w email invitations l₁).shared
      rw [hmoved, findMember_congr hmembers] at hafter
      exact absurd hafter hbefore
    · rcases save_step hop ω with ⟨href, -⟩ | ⟨-, -, hsame⟩
      · exact ⟨l₁, i, ω, l₂, m, k, rfl, href, hop⟩
      · rw [invited_append, run_cons, run_nil] at hsame
        rw [hsame] at hafter
        exact absurd hafter hbefore

/-- A finished run in which a save finds a row has two calls that return. -/
theorem firstSaves_of_one {l : List (Nat × Choice)}
    (hend : ∀ p ∈ (invited pg s w email invitations l).calls, p.finished = true)
    (hone : AtMostOneReturned (invited pg s w email invitations l)) :
    Meets (apiExec pg) (OnOp fun s op => firstSave s op = true)
      (inviting s w email invitations) l := by
  -- a call whose save goes through returns
  have hreturned : ∀ {l₁ l₂ i m k}, (ω : Choice) → l = l₁ ++ (i, ω) :: l₂ →
      (invited pg s w email invitations l₁).calls[i]? = some (.await (.saveMember m) k) →
      Referred s.db m → ∃ a,
        (invited pg s w email invitations l).calls[i]? = some (.done a) := by
    rintro l₁ l₂ i m k ω rfl hop href
    obtain ⟨q, hq⟩ := run_calls_some (apiExec pg) hop ((i, ω) :: l₂)
    rw [← invited_append] at hq
    have hfin := hend q (List.mem_of_getElem? hq)
    cases q with
    | done a => exact ⟨a, hq⟩
    | fail e => exact absurd rfl ((saved_run hop href ω hq).2.2 e)
    | await op k' => exact nomatch hfin
  rw [meets_iff_split]
  intro l₁ j ω l₂ hl op k hop
  by_contra hfirst
  cases op with
  | saveMember m =>
      have hduty : SaveDuty pg s w email m k := invited_duty hop
      have hrow : (findMember (invited pg s w email invitations l₁).shared.db w
          m.userId).isSome = true := by
        have hsome : findMember (invited pg s w email invitations l₁).shared.db m.workspaceId
            m.userId ≠ none := fun h => hfirst (Option.isNone_iff_eq_none.mpr h)
        rw [hduty.workspace] at hsome
        exact Option.isSome_iff_ne_none.mpr hsome
      obtain ⟨l₀, i, ω', l₀', m', k', rfl, href, hop'⟩ :=
        saved_before hduty.absent hrow
      have hduty' : SaveDuty pg s w email m' k' := invited_duty hop'
      have href' : Referred s.db m := hduty.referred (hduty'.workspace ▸ href.1)
      -- the call that saved before has no save to come
      have hij : i ≠ j := by
        rintro rfl
        exact (saved_run hop' href ω' hop).1.1
      obtain ⟨a, ha⟩ := hreturned ω hl hop href'
      obtain ⟨b, hb⟩ := hreturned ω' (by rw [hl, List.append_assoc]; rfl) hop' href
      exact hij (hone i j _ _ hb ha rfl rfl)
  | _ => exact hfirst rfl

/-- **When a membership is created once.**  For every state, every number of invitations
    of a user with any roles, and every schedule: if no save finds a row of its workspace
    and user, at most one call returns, its row is the one that is stored, and no stored
    row is ever changed.  And a run to the end of all calls in which at most one returns
    is of this kind. -/
theorem membership_created_once_iff (pg : Postgres) (s : TaskState) (w email : String)
    (invitations : List Invitation) (l : List (Nat × Choice)) :
    (Meets (apiExec pg) (OnOp fun s op => firstSave s op = true)
        (inviting s w email invitations) l → CreatedOnce pg s w email invitations l) ∧
      ((∀ p ∈ (invited pg s w email invitations l).calls, p.finished = true) →
        CreatedOnce pg s w email invitations l →
        Meets (apiExec pg) (OnOp fun s op => firstSave s op = true)
          (inviting s w email invitations) l) := by
  refine ⟨created_once, ?_⟩
  intro hend honce
  refine firstSaves_of_one hend ?_
  intro i j p q hp hq hpret hqret
  by_contra hij
  have hthrew := honce.one i j p q hij hp hq hpret (Prog.finished_of_returned hqret)
  cases q with
  | done a => exact nomatch hthrew
  | fail e => exact nomatch hqret
  | await op k => exact nomatch hqret

end Runs

/-- Bob is registered, and not a member. -/
def bobOutside : TaskState :=
  { office with db := { office.db with members := [⟨"w", "a", .admin⟩] } }

/-- Alice invites Bob as an administrator, and as a member. -/
def bothRoles : List Invitation := [⟨"a", .admin⟩, ⟨"a", .member⟩]

/-- The second invitation starts when the first is done. -/
theorem membership_created_once_bob :
    CreatedOnce plainPostgres bobOutside "w" "bob@x" bothRoles
      (turns [0, 0, 0, 0, 0, 0, 0, 0, 0, 0, 0, 0, 0, 1, 1, 1]) :=
  (membership_created_once_iff plainPostgres bobOutside "w" "bob@x" bothRoles
    (turns [0, 0, 0, 0, 0, 0, 0, 0, 0, 0, 0, 0, 0, 1, 1, 1])).1 (by decide)

/-- Both look before either saves. -/
def bothLook : List (Nat × Choice) :=
  turns [0, 0, 0, 0, 0, 1, 1, 1, 0, 0, 0, 0, 0, 0, 0, 0, 1, 1, 1, 1, 1, 1, 1, 1]

/-- Both return, and Bob, an administrator by the first reply, is a member. -/
theorem invitation_overwrites_role :
    (invited plainPostgres bobOutside "w" "bob@x" bothRoles bothLook).calls.map Prog.outcome
        = [some (.ok ⟨"w", "b", .admin⟩), some (.ok ⟨"w", "b", .member⟩)] ∧
      findMember (invited plainPostgres bobOutside "w" "bob@x" bothRoles bothLook).shared.db
        "w" "b" = some ⟨"w", "b", .member⟩ ∧
      ¬ CreatedOnce plainPostgres bobOutside "w" "bob@x" bothRoles bothLook := by
  have houtcomes : (invited plainPostgres bobOutside "w" "bob@x" bothRoles
      bothLook).calls.map Prog.outcome
      = [some (.ok ⟨"w", "b", .admin⟩), some (.ok ⟨"w", "b", .member⟩)] := by decide
  have hstored : findMember (invited plainPostgres bobOutside "w" "bob@x" bothRoles
      bothLook).shared.db "w" "b" = some ⟨"w", "b", .member⟩ := by decide
  refine ⟨houtcomes, hstored, ?_⟩
  intro h
  have hfirst := congrArg (fun l => l[0]?) houtcomes
  rw [List.getElem?_map] at hfirst
  obtain ⟨p, hp, hout⟩ := Option.map_eq_some_iff.mp hfirst
  rw [Prog.eq_done_of_outcome hout] at hp
  -- the row of the first call is not the one that is stored
  have hrow := (h.stored 0 ⟨"a", .admin⟩ ⟨"w", "b", .admin⟩ rfl hp).2
  exact absurd (hstored.symm.trans hrow) (by decide)

end PlatformApi
