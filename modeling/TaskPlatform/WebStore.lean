import TaskPlatform.WebClient

/-! # The store of the web client

    The reducers of `authSlice.ts`, `workspaceSlice.ts` and `projectSlice.ts` in
    `src/frontend/src/app/store/slices`, which also write to `localStorage`, and the state
    that the page starts from when it is loaded.

    `logout` resets the auth slice and removes the items of the storage.  The other two
    slices keep what they hold, so a logout leaves the store of a fresh page exactly when
    they have been emptied before (`logout_fresh_iff`). -/

namespace PlatformWeb

open EventRuns
open PlatformTasks (truthy)

/-! ## The slices -/

/-- A workspace as the store keeps it. -/
structure WorkspaceInfo where
  id : String
  name : String
  slug : String
  ownerId : String
  createdAt : String
  deriving DecidableEq, Repr

/-- `members` is a list of `any`. -/
structure WorkspaceState (Member : Type) where
  activeWorkspaceId : Option String
  workspaces : List WorkspaceInfo := []
  members : List Member := []
  isLoading : Bool := false
  deriving DecidableEq, Repr

/-- A project as the store keeps it. -/
structure ProjectInfo where
  id : String
  workspaceId : String
  name : String
  description : Option String := none
  isArchived : Bool
  createdAt : String
  deriving DecidableEq, Repr

/-- The state of the project slice. -/
structure ProjectState where
  activeProjectId : Option String := none
  projects : List ProjectInfo := []
  deriving DecidableEq, Repr

/-- The three slices, and the storage that their reducers write to. -/
structure Store (Member : Type) where
  auth : AuthState
  workspace : WorkspaceState Member
  project : ProjectState
  localStorage : LocalStorage
  deriving DecidableEq, Repr

/-- `Partial<UserInfo>`: the fields that are there. -/
structure UserChanges where
  id : Option String := none
  email : Option String := none
  name : Option String := none
  avatar : Option (Option String) := none
  isVerified : Option Bool := none
  deriving DecidableEq, Repr

/-- `{ ...user, ...changes }`. -/
def UserChanges.spread (changes : UserChanges) (user : UserInfo) : UserInfo where
  id := changes.id.getD user.id
  email := changes.email.getD user.email
  name := changes.name.getD user.name
  avatar := changes.avatar.getD user.avatar
  isVerified := changes.isVerified.getD user.isVerified

/-- The actions of the three slices. -/
inductive StoreAction (Member : Type) where
  | setCredentials (token : String) (refreshToken : Option String) (user : Option UserInfo)
  | updateUser (changes : UserChanges)
  | logout
  | setActiveWorkspaceId (id : Option String)
  | setWorkspaces (workspaces : List WorkspaceInfo)
  | setMembers (members : List Member)
  | clearWorkspaceState
  | setActiveProjectId (id : Option String)
  | setProjects (projects : List ProjectInfo)
  | clearProjectState
  deriving DecidableEq, Repr

namespace Store

variable {Member : Type}

/-- The initial states of the slices, from the storage that the page finds. -/
def load (localStorage : LocalStorage) : Store Member where
  auth := initialState localStorage
  workspace := { activeWorkspaceId := localStorage.active_workspace_id }
  project := {}
  localStorage := localStorage

/-- `setCredentials`. -/
def setCredentials (s : Store Member) (token : String) (refreshToken : Option String)
    (user : Option UserInfo) : Store Member :=
  { s with
    auth := ⟨some token, user, true⟩
    localStorage := { s.localStorage with
      access_token := some token
      refresh_token :=
        match truthy refreshToken with
        | some refreshToken => some refreshToken
        | none => s.localStorage.refresh_token
      user_info := some user } }

/-- `updateUser`: nothing without a user. -/
def updateUser (s : Store Member) (changes : UserChanges) : Store Member :=
  match s.auth.user with
  | none => s
  | some user =>
      { s with
        auth := { s.auth with user := some (changes.spread user) }
        localStorage := { s.localStorage with
          user_info := some (some (changes.spread user)) } }

/-- `logout` clears the storage, and of the store its own slice alone. -/
def logout (s : Store Member) : Store Member :=
  { s with auth := ⟨none, none, false⟩, localStorage := {} }

/-- `setActiveWorkspaceId`. -/
def setActiveWorkspaceId (s : Store Member) (id : Option String) : Store Member :=
  { s with
    workspace := { s.workspace with activeWorkspaceId := id }
    localStorage := { s.localStorage with active_workspace_id := truthy id } }

/-- `setWorkspaces`: the first becomes active where none is. -/
def setWorkspaces (s : Store Member) (workspaces : List WorkspaceInfo) : Store Member :=
  let s := { s with workspace := { s.workspace with workspaces := workspaces } }
  match workspaces, truthy s.workspace.activeWorkspaceId with
  | first :: _, none =>
      { s with
        workspace := { s.workspace with activeWorkspaceId := some first.id }
        localStorage := { s.localStorage with active_workspace_id := some first.id } }
  | _, _ => s

/-- `setMembers`. -/
def setMembers (s : Store Member) (members : List Member) : Store Member :=
  { s with workspace := { s.workspace with members := members } }

/-- `clearWorkspaceState`. -/
def clearWorkspaceState (s : Store Member) : Store Member :=
  { s with workspace :=
      { s.workspace with activeWorkspaceId := none, workspaces := [], members := [] } }

/-- `setActiveProjectId`. -/
def setActiveProjectId (s : Store Member) (id : Option String) : Store Member :=
  { s with project := { s.project with activeProjectId := id } }

/-- `setProjects`. -/
def setProjects (s : Store Member) (projects : List ProjectInfo) : Store Member :=
  { s with project := { s.project with projects := projects } }

/-- `clearProjectState`. -/
def clearProjectState (s : Store Member) : Store Member :=
  { s with project := { s.project with activeProjectId := none, projects := [] } }

/-- `store.dispatch`. -/
def dispatch (s : Store Member) : StoreAction Member → Store Member
  | .setCredentials token refreshToken user => s.setCredentials token refreshToken user
  | .updateUser changes => s.updateUser changes
  | .logout => s.logout
  | .setActiveWorkspaceId id => s.setActiveWorkspaceId id
  | .setWorkspaces workspaces => s.setWorkspaces workspaces
  | .setMembers members => s.setMembers members
  | .clearWorkspaceState => s.clearWorkspaceState
  | .setActiveProjectId id => s.setActiveProjectId id
  | .setProjects projects => s.setProjects projects
  | .clearProjectState => s.clearProjectState

/-- The headers that `axiosBaseQuery` adds to a request. -/
def requestHeaders (s : Store Member) : List (String × String) :=
  (truthy s.auth.token).toList.map (fun token => ("Authorization", "Bearer " ++ token)) ++
    (truthy s.workspace.activeWorkspaceId).toList.map (fun id => ("x-workspace-id", id))

/-- The store as the requests see it. -/
def client (s : Store Member) : Client where
  auth := s.auth
  localStorage := s.localStorage

/-- The auth reducers are those of the client. -/
theorem load_client (localStorage : LocalStorage) :
    (load localStorage : Store Member).client = Client.load localStorage := rfl

theorem setCredentials_client (s : Store Member) (token : String)
    (refreshToken : Option String) (user : Option UserInfo) :
    (s.setCredentials token refreshToken user).client
      = s.client.setCredentials token refreshToken user := rfl

theorem logout_client (s : Store Member) : s.logout.client = s.client.logout := rfl

theorem updateUser_client (s : Store Member) (name : String) :
    (s.updateUser { name := some name }).client = s.client.updateUser name := by
  obtain ⟨⟨token, user, isAuthenticated⟩, workspace, project, localStorage⟩ := s
  cases user with
  | none => rfl
  | some user => rfl

end Store

/-! ## What the actions leave -/

/-- What the workspace and the project slice hold. -/
inductive Item where
  | activeWorkspace
  | workspaces
  | members
  | activeProject
  | projects
  deriving DecidableEq, Repr

section Leaving

variable {Member : Type}

/-- The item is in the store. -/
def Store.holds (s : Store Member) : Item → Bool
  | .activeWorkspace => s.workspace.activeWorkspaceId.isSome
  | .workspaces => !s.workspace.workspaces.isEmpty
  | .members => !s.workspace.members.isEmpty
  | .activeProject => s.project.activeProjectId.isSome
  | .projects => !s.project.projects.isEmpty

/-- Whether the action fills or empties the item, if it does either. -/
def StoreAction.fills : Item → StoreAction Member → Option Bool
  | .activeWorkspace, .setActiveWorkspaceId id => some id.isSome
  | .activeWorkspace, .setWorkspaces (_ :: _) => some true
  | .activeWorkspace, .clearWorkspaceState => some false
  | .workspaces, .setWorkspaces workspaces => some !workspaces.isEmpty
  | .workspaces, .clearWorkspaceState => some false
  | .members, .setMembers members => some !members.isEmpty
  | .members, .clearWorkspaceState => some false
  | .activeProject, .setActiveProjectId id => some id.isSome
  | .activeProject, .clearProjectState => some false
  | .projects, .setProjects projects => some !projects.isEmpty
  | .projects, .clearProjectState => some false
  | _, _ => none

/-- What the actions fill last they leave, and an active workspace that was stored. -/
def Leaves (localStorage : LocalStorage) (actions : List (StoreAction Member)) (item : Item) :
    Bool :=
  lastWritten (StoreAction.fills item)
    (item = .activeWorkspace && localStorage.active_workspace_id.isSome) actions

/-- The state that a reload would compute from the storage. -/
def Fresh (s : Store Member) : Prop := s = .load s.localStorage

theorem updateUser_slices (s : Store Member) (changes : UserChanges) :
    (s.updateUser changes).workspace = s.workspace ∧
      (s.updateUser changes).project = s.project := by
  unfold Store.updateUser
  cases s.auth.user with
  | none => exact ⟨rfl, rfl⟩
  | some user => exact ⟨rfl, rfl⟩

theorem setWorkspaces_holds (s : Store Member) (workspaces : List WorkspaceInfo)
    (item : Item) :
    (s.setWorkspaces workspaces).holds item
      = (StoreAction.fills item (.setWorkspaces workspaces : StoreAction Member)).getD
          (s.holds item) := by
  cases workspaces with
  | nil => cases item <;> rfl
  | cons first rest =>
      unfold Store.setWorkspaces
      dsimp only
      cases h : truthy s.workspace.activeWorkspaceId with
      | none => cases item <;> rfl
      | some id =>
          -- the active workspace stays
          cases item with
          | activeWorkspace =>
              show s.workspace.activeWorkspaceId.isSome = true
              rw [(PlatformTasks.truthy_eq_some.mp h).1]
              rfl
          | workspaces => rfl
          | members => rfl
          | activeProject => rfl
          | projects => rfl

/-- An action fills an item, empties it or leaves it alone. -/
theorem dispatch_holds (item : Item) (s : Store Member) (action : StoreAction Member) :
    (s.dispatch action).holds item = (action.fills item).getD (s.holds item) := by
  cases action with
  | updateUser changes =>
      obtain ⟨hworkspace, hproject⟩ := updateUser_slices s changes
      cases item <;> simp only [Store.dispatch, Store.holds, StoreAction.fills, hworkspace,
        hproject, Option.getD_none]
  | setWorkspaces workspaces => exact setWorkspaces_holds s workspaces item
  | _ => cases item <;> rfl

theorem dispatch_isLoading (s : Store Member) (action : StoreAction Member)
    (h : s.workspace.isLoading = false) :
    (s.dispatch action).workspace.isLoading = false := by
  cases action with
  | updateUser changes =>
      show (s.updateUser changes).workspace.isLoading = false
      rw [(updateUser_slices s changes).1]
      exact h
  | setWorkspaces workspaces =>
      show (s.setWorkspaces workspaces).workspace.isLoading = false
      unfold Store.setWorkspaces
      dsimp only
      split
      · exact h
      · exact h
  | _ => exact h

theorem run_holds (localStorage : LocalStorage) (actions : List (StoreAction Member))
    (item : Item) :
    (play Store.dispatch (.load localStorage) actions).holds item
      = Leaves localStorage actions item := by
  have hrun := @play_lastWritten _ _ _ _ (fun s : Store Member => s.holds item) _
    (dispatch_holds item) (.load localStorage) actions
  rw [hrun, Leaves]
  cases item <;> rfl

theorem run_isLoading (localStorage : LocalStorage) (actions : List (StoreAction Member)) :
    (play Store.dispatch (.load localStorage) actions).workspace.isLoading = false :=
  play_invariant (fun s action h => dispatch_isLoading s action h) rfl actions

/-- A logout leaves the other slices as they are. -/
theorem logout_fresh (s : Store Member) (hloading : s.workspace.isLoading = false) :
    Fresh s.logout ↔ ∀ item, s.holds item = false := by
  obtain ⟨auth, ⟨activeWorkspaceId, workspaces, members, isLoading⟩,
    ⟨activeProjectId, projects⟩, localStorage⟩ := s
  cases hloading
  constructor
  · intro h
    have hworkspace : (⟨activeWorkspaceId, workspaces, members, false⟩ : WorkspaceState Member)
        = { activeWorkspaceId := none } := congrArg Store.workspace h
    have hproject : (⟨activeProjectId, projects⟩ : ProjectState) = {} :=
      congrArg Store.project h
    cases hworkspace
    cases hproject
    intro item
    cases item <;> rfl
  · intro h
    have hactive := Option.not_isSome_iff_eq_none.mp
      (Bool.eq_false_iff.mp (h .activeWorkspace))
    have hproject := Option.not_isSome_iff_eq_none.mp
      (Bool.eq_false_iff.mp (h .activeProject))
    have hworkspaces := List.isEmpty_iff.mp ((Bool.not_eq_false' _).mp (h .workspaces))
    have hmembers := List.isEmpty_iff.mp ((Bool.not_eq_false' _).mp (h .members))
    have hprojects := List.isEmpty_iff.mp ((Bool.not_eq_false' _).mp (h .projects))
    cases hactive
    cases hproject
    cases hworkspaces
    cases hmembers
    cases hprojects
    rfl

/-- **When a logout is a fresh start.**  For every page load and every sequence of
    actions: after a final logout the three slices are those that a reload would compute,
    exactly when the actions have left nothing in the workspace and the project slice;
    the logout itself empties neither. -/
theorem logout_fresh_iff (localStorage : LocalStorage) (actions : List (StoreAction Member)) :
    Fresh (play Store.dispatch (.load localStorage) (actions ++ [.logout])) ↔
      ∀ item, Leaves localStorage actions item = false := by
  rw [play_append]
  refine (logout_fresh _ (run_isLoading localStorage actions)).trans ?_
  exact forall_congr' fun item => by rw [run_holds]

end Leaving

/-- Alice logs in, her workspaces arrive, and she logs out. -/
def aliceSession : List (StoreAction Unit) :=
  [.setCredentials "alice" none none,
    .setWorkspaces [⟨"w", "Work", "work", "a", "2024-01-01"⟩]]

/-- Her workspace is still active, and the requests of the next login carry it. -/
theorem logout_keeps_workspace :
    ¬ Fresh (play Store.dispatch (.load {}) (aliceSession ++ [.logout])) ∧
      (play Store.dispatch (.load {}) (aliceSession ++ [.logout])).workspace.activeWorkspaceId
        = some "w" ∧
      (play Store.dispatch (.load {}) (aliceSession ++
          [.logout, .setCredentials "bob" none none])).requestHeaders
        = [("Authorization", "Bearer bob"), ("x-workspace-id", "w")] := by
  refine ⟨?_, rfl, rfl⟩
  intro h
  have hactive := congrArg (fun s => s.workspace.activeWorkspaceId) h
  cases hactive

end PlatformWeb
