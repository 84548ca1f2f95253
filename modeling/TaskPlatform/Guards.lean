import TaskPlatform.Routes

/-! # The two guards, line by line

    `RoleGuard` and `PermissionGuard` of `src/common/guards` look for the workspace of a
    request each in its own copy of the same lines.  Here each has its own copy too, with
    all that Postgres may make of a value that is no text, and `guards_alike` is that the
    copies agree: on a route without roles `RoleGuard` makes no difference to what
    `PermissionGuard` decides.

    The programs of `Routes` do what these functions say (`roleGuard_runs`,
    `permissionGuard_runs`). -/

namespace PlatformApi

open AsyncProgram PlatformEntities PlatformTasks RowTable

/-! ## The guards -/

/-- Counts as true in JavaScript. -/
def Param.truthy : Param → Bool
  | .undefined => false
  | .text s => s ≠ ""
  | .other => true

/-- What Postgres makes of a value that is compared with a column of type `uuid` or
    `varchar`, or that it rejects it. -/
structure ColumnTypes where
  uuid : Param → Except HttpError String
  varchar : Param → Except HttpError String

/-- A request on its way through the guards, and what they attach to it. -/
structure GuardedRequest where
  request : Request
  workspaceId : Param
  workspaceMember : Option WorkspaceMember
  deriving DecidableEq, Repr

/-- As `JwtAuthGuard` leaves it. -/
def Request.fresh (r : Request) : GuardedRequest := ⟨r, .undefined, none⟩

section Guards

variable (types : ColumnTypes) (db : Database)

/-- `findOne({ where: { slug } })`. -/
def findBySlugValue (slug : Param) : Except HttpError (Option Workspace) := do
  let text ← types.varchar slug
  .ok (db.workspaces.find? fun w => w.slug = text)

/-- `findOne({ where: { workspaceId, userId } })`. -/
def findMemberValue (workspaceId : Param) (userId : String) :
    Except HttpError (Option WorkspaceMember) := do
  let id ← types.uuid workspaceId
  .ok (findMember db id userId)

/-- `RoleGuard.canActivate`.  It returns `true` wherever it does not throw. -/
def RoleGuard.canActivate (requiredRoles : Option (List Role)) (g : GuardedRequest) :
    Except HttpError GuardedRequest :=
  match g.request.user with
  | none => .error (.forbidden "User context not found in request")
  | some user => do
      let r := g.request
      let named := r.params.workspaceId.or (r.query.workspaceId.or
        (r.headers.workspaceId.or r.body.workspaceId))
      let slug := r.params.slug.or (r.query.slug.or (r.headers.slug.or r.body.slug))
      let workspaceId ←
        (if !named.truthy && slug.truthy then do
          let workspace ← findBySlugValue types db slug
          .ok ((workspace.map fun w => .text w.id).getD named)
        else .ok named)
      if !workspaceId.truthy then
        match requiredRoles with
        | none => .ok g
        | some _ => .error (.badRequest
            "Workspace context (workspaceId or slug) is required for this route")
      else do
        let member ← findMemberValue types db workspaceId user.userId
        match member with
        | none => .error (.forbidden "You are not a member of this workspace")
        | some member =>
            let g' := { g with workspaceId := workspaceId, workspaceMember := some member }
            match requiredRoles with
            | none => .ok g'
            | some roles =>
                if roles = [] then .ok g'
                else if member.role ∈ roles then .ok g'
                else .error (.forbidden ("Access denied. Required role(s): "
                  ++ ", ".intercalate (roles.map Role.text)))

/-- `PermissionGuard.canActivate`. -/
def PermissionGuard.canActivate (requiredPermissions : Option (List Permission))
    (g : GuardedRequest) : Except HttpError GuardedRequest :=
  match requiredPermissions with
  | none => .ok g
  | some [] => .ok g
  | some required =>
      match g.request.user with
      | none => .error (.forbidden "User context not found in request")
      | some user => do
          let (g', member) ←
            (match g.workspaceMember with
            | some member => .ok (g, member)
            | none => do
                let r := g.request
                let named := r.params.workspaceId.or (r.query.workspaceId.or
                  (r.headers.workspaceId.or r.body.workspaceId))
                let slug := r.params.slug.or (r.query.slug.or
                  (r.headers.slug.or r.body.slug))
                let workspaceId ←
                  (if !named.truthy && slug.truthy then do
                    let workspace ← findBySlugValue types db slug
                    .ok ((workspace.map fun w => .text w.id).getD named)
                  else .ok named)
                if !workspaceId.truthy then
                  .error (.badRequest "Workspace context is required for permission check")
                else do
                  let member ← findMemberValue types db workspaceId user.userId
                  match member with
                  | none => .error (.forbidden "You are not a member of this workspace")
                  | some member =>
                      .ok ({ g with
                        workspaceId := workspaceId
                        workspaceMember := some member }, member))
          if required.all fun perm => perm ∈ rolePermissions member.role then .ok g'
          else .error (.forbidden ("Access denied. Required permission(s): "
            ++ ", ".intercalate (required.map Permission.text)))

end Guards

/-- Both guards, as `@UseGuards` runs them. -/
def bothGuards (types : ColumnTypes) (db : Database) (requiredRoles : Option (List Role))
    (requiredPermissions : Option (List Permission)) (g : GuardedRequest) :
    Except HttpError GuardedRequest := do
  let g' ← RoleGuard.canActivate types db requiredRoles g
  PermissionGuard.canActivate types db requiredPermissions g'

/-! ## What both look up -/

section Lookups

variable (types : ColumnTypes) (db : Database)

/-- The id that is named, or that of the workspace of the slug. -/
def namedWorkspace (named slug : Param) : Except HttpError Param :=
  if !named.truthy && slug.truthy then do
    let workspace ← findBySlugValue types db slug
    .ok ((workspace.map fun w => Param.text w.id).getD named)
  else .ok named

/-- The membership of a user in the workspace; nothing if no workspace is named. -/
def membership (userId : String) (workspaceId : Param) :
    Except HttpError (Option (Param × WorkspaceMember)) :=
  if !workspaceId.truthy then .ok none
  else do
    let member ← findMemberValue types db workspaceId userId
    match member with
    | none => .error (.forbidden "You are not a member of this workspace")
    | some member => .ok (some (workspaceId, member))

/-- What a guard looks up for a request. -/
def lookUp (r : Request) (userId : String) :
    Except HttpError (Option (Param × WorkspaceMember)) :=
  namedWorkspace types db r.workspaceId r.slug >>= membership types db userId

variable {types db}

/-- What `RoleGuard` makes of it on a route without roles. -/
def passWithoutRoles (roles : Option (List Role)) (g : GuardedRequest) :
    Option (Param × WorkspaceMember) → Except HttpError GuardedRequest
  | none =>
      if roles = none then .ok g
      else .error (.badRequest
        "Workspace context (workspaceId or slug) is required for this route")
  | some found => .ok ⟨g.request, found.1, some found.2⟩

/-- The last check of `PermissionGuard`. -/
def permit (required : List Permission) (g : GuardedRequest) (member : WorkspaceMember) :
    Except HttpError GuardedRequest :=
  if required.all fun perm => perm ∈ rolePermissions member.role then .ok g
  else .error (.forbidden ("Access denied. Required permission(s): "
    ++ ", ".intercalate (required.map Permission.text)))

/-- What `PermissionGuard` makes of it. -/
def passPermitted (required : List Permission) (g : GuardedRequest) :
    Option (Param × WorkspaceMember) → Except HttpError GuardedRequest
  | none => .error (.badRequest "Workspace context is required for permission check")
  | some found => permit required ⟨g.request, found.1, some found.2⟩ found.2

theorem roleGuard_eq {roles : Option (List Role)} (hroles : roles = none ∨ roles = some [])
    {g : GuardedRequest} {user : AuthUser} (huser : g.request.user = some user) :
    RoleGuard.canActivate types db roles g
      = lookUp types db g.request user.userId >>= passWithoutRoles roles g := by
  unfold RoleGuard.canActivate lookUp
  simp only [huser]
  rw [bind_assoc]
  show namedWorkspace types db g.request.workspaceId g.request.slug >>= _ = _
  congr 1
  funext workspaceId
  unfold membership
  by_cases htruthy : (!workspaceId.truthy) = true
  · rw [if_pos htruthy, if_pos htruthy]
    rcases hroles with rfl | rfl <;> rfl
  · rw [if_neg htruthy, if_neg htruthy]
    cases findMemberValue types db workspaceId user.userId with
    | error e => rfl
    | ok member =>
        cases member with
        | none => rfl
        | some member => rcases hroles with rfl | rfl <;> rfl

/-- `PermissionGuard` on a request that nothing is attached to. -/
theorem permissionGuard_eq {required : List Permission} (hrequired : required ≠ [])
    {g : GuardedRequest} {user : AuthUser} (huser : g.request.user = some user)
    (hmember : g.workspaceMember = none) :
    PermissionGuard.canActivate types db (some required) g
      = lookUp types db g.request user.userId >>= passPermitted required g := by
  obtain ⟨perm, rest, rfl⟩ := List.exists_cons_of_ne_nil hrequired
  unfold PermissionGuard.canActivate lookUp
  simp only [huser, hmember]
  rw [bind_assoc, bind_assoc]
  show namedWorkspace types db g.request.workspaceId g.request.slug >>= _ = _
  congr 1
  funext workspaceId
  unfold membership
  by_cases htruthy : (!workspaceId.truthy) = true
  · rw [if_pos htruthy, if_pos htruthy]
    rfl
  · rw [if_neg htruthy, if_neg htruthy]
    cases findMemberValue types db workspaceId user.userId with
    | error e => rfl
    | ok member => cases member <;> rfl

theorem roleGuard_of_noUser {roles : Option (List Role)} {g : GuardedRequest}
    (huser : g.request.user = none) : RoleGuard.canActivate types db roles g
      = .error (.forbidden "User context not found in request") := by
  unfold RoleGuard.canActivate
  rw [huser]

theorem permissionGuard_of_noUser {required : List Permission} (hrequired : required ≠ [])
    {g : GuardedRequest} (huser : g.request.user = none) :
    PermissionGuard.canActivate types db (some required) g
      = .error (.forbidden "User context not found in request") := by
  obtain ⟨perm, rest, rfl⟩ := List.exists_cons_of_ne_nil hrequired
  unfold PermissionGuard.canActivate
  rw [huser]

/-- It does not look again for what is attached. -/
theorem permissionGuard_of_attached {required : List Permission} (hrequired : required ≠ [])
    {g : GuardedRequest} {user : AuthUser} (huser : g.request.user = some user)
    {member : WorkspaceMember} (hmember : g.workspaceMember = some member) :
    PermissionGuard.canActivate types db (some required) g = permit required g member := by
  obtain ⟨perm, rest, rfl⟩ := List.exists_cons_of_ne_nil hrequired
  unfold PermissionGuard.canActivate
  simp only [huser, hmember]
  rfl

end Lookups

/-! ## Outcomes -/

/-- The class of an exception. -/
inductive ErrorKind where
  | badRequest
  | unauthorized
  | forbidden
  | notFound
  | conflict
  | queryFailed
  deriving DecidableEq, Repr

/-- The class of an exception. -/
def errorKind : HttpError → ErrorKind
  | .badRequest _ => .badRequest
  | .unauthorized _ => .unauthorized
  | .forbidden _ => .forbidden
  | .notFound _ => .notFound
  | .conflict _ => .conflict
  | .queryFailed => .queryFailed

/-- The same request is let pass with the same things attached, or the same kind of
    exception is thrown. -/
def SameOutcome (a b : Except HttpError GuardedRequest) : Prop :=
  a.mapError errorKind = b.mapError errorKind

/-- **The guards agree.**  For every request, every database and whatever Postgres makes of
    odd values: on a route with permissions and without roles, both guards one after the
    other decide as `PermissionGuard` alone does. -/
theorem guards_alike (types : ColumnTypes) (db : Database) {roles : Option (List Role)}
    (hroles : roles = none ∨ roles = some []) {required : List Permission}
    (hrequired : required ≠ []) (r : Request) :
    SameOutcome (bothGuards types db roles (some required) r.fresh)
      (PermissionGuard.canActivate types db (some required) r.fresh) := by
  cases huser : r.user with
  | none =>
      have huser' : r.fresh.request.user = none := huser
      rw [bothGuards, roleGuard_of_noUser huser', permissionGuard_of_noUser hrequired huser']
      rfl
  | some user =>
      have huser' : r.fresh.request.user = some user := huser
      rw [bothGuards, roleGuard_eq hroles huser', permissionGuard_eq hrequired huser' rfl]
      cases hfound : lookUp types db r.fresh.request user.userId with
      | error e => rfl
      | ok found =>
          cases found with
          | none =>
              -- no workspace: `PermissionGuard` finds none either, if it is asked at all
              rcases hroles with rfl | rfl
              · show SameOutcome (PermissionGuard.canActivate types db (some required) r.fresh) _
                rw [permissionGuard_eq hrequired huser' rfl, hfound]
                rfl
              · rfl
          | some found =>
              show SameOutcome (PermissionGuard.canActivate types db (some required)
                ⟨r, found.1, some found.2⟩) _
              rw [permissionGuard_of_attached hrequired huser rfl]
              rfl

/-- Texts as they are; anything else is rejected. -/
def textColumns : ColumnTypes where
  uuid := textOnly
  varchar := textOnly
where
  textOnly : Param → Except HttpError String
    | .text s => .ok s
    | _ => .error .queryFailed

/-- Bob, who names his workspace by its slug in a header and may create tasks. -/
def bobsRequest : Request :=
  ⟨some ⟨"b", "bob@x"⟩, {}, {}, { slug := .text "work" }, { workspaceId := .text "" }⟩

theorem guards_alike_bob :
    SameOutcome (bothGuards textColumns office.db none (some [.taskCreate]) bobsRequest.fresh)
      (PermissionGuard.canActivate textColumns office.db (some [.taskCreate])
        bobsRequest.fresh) :=
  guards_alike textColumns office.db (.inl rfl) (by decide) bobsRequest

/-! ## The programs of the routes -/

section Programs

variable {pg : Postgres} {s : TaskState}

/-- What `resolveWorkspace` comes back with, beside the id that is named. -/
inductive Resolved : Except HttpError (Option String) → Except HttpError Param → Prop where
  | none (named : Param) (h : named.truthy = false) : Resolved (.ok none) (.ok named)
  | some (id : String) (h : id ≠ "") : Resolved (.ok (some id)) (.ok (.text id))
  | rejected : Resolved (.error .queryFailed) (.error .queryFailed)
  | odd : Resolved (.error .queryFailed) (.ok .other)

/-- Ids are generated, and so never empty. -/
def IdsGiven (db : Database) : Prop := ∀ w ∈ db.workspaces, w.id ≠ ""

theorem resolveSlug_ensures (hids : IdsGiven s.db) (r : Request) {named : Param}
    (hnamed : named.truthy = false) :
    Ensures (apiExec pg) (fun out s' => s'.db = s.db ∧
      Resolved out (namedWorkspace textColumns s.db named r.slug))
      (resolveWorkspace.resolveSlug r) s := by
  unfold resolveWorkspace.resolveSlug namedWorkspace
  rw [hnamed]
  cases r.slug with
  | undefined => exact ⟨rfl, .none _ hnamed⟩
  | other => exact ⟨rfl, .rejected⟩
  | text slug =>
      by_cases hempty : slug = ""
      · simp only [if_pos hempty]
        rw [if_neg (by simp [Param.truthy, hempty])]
        exact ⟨rfl, .none _ hnamed⟩
      · simp only [if_neg hempty]
        rw [if_pos (by simp [Param.truthy, hempty])]
        intro ω
        refine ⟨rfl, ?_⟩
        show Resolved (.ok (((s.db.workspaces.find? fun w => w.slug = slug).map
          (loadWorkspace s.db)).map fun w => w.row.id)) (.ok (((s.db.workspaces.find? fun w =>
            w.slug = slug).map fun w => Param.text w.id).getD named))
        cases hfound : s.db.workspaces.find? fun w => w.slug = slug with
        | none => exact .none _ hnamed
        | some w => exact .some w.id (hids w (List.mem_of_find?_eq_some hfound))

theorem resolveWorkspace_ensures (hids : IdsGiven s.db) (r : Request) :
    Ensures (apiExec pg) (fun out s' => s'.db = s.db ∧
      Resolved out (namedWorkspace textColumns s.db r.workspaceId r.slug))
      (resolveWorkspace r) s := by
  unfold resolveWorkspace
  cases r.workspaceId with
  | undefined => exact resolveSlug_ensures hids r rfl
  | other => exact ⟨rfl, .odd⟩
  | text id =>
      by_cases hempty : id = ""
      · simp only [if_pos hempty]
        exact resolveSlug_ensures hids r (by rw [hempty]; rfl)
      · simp only [if_neg hempty]
        have hnamed : namedWorkspace textColumns s.db (.text id) r.slug = .ok (.text id) := by
          rw [namedWorkspace, if_neg (by simp [Param.truthy, hempty])]
        rw [hnamed]
        exact ⟨rfl, .some id hempty⟩

/-- What is attached, as the programs have it. -/
def GuardedRequest.attached (g : GuardedRequest) : Option Attached :=
  match g.workspaceId, g.workspaceMember with
  | .text id, some member => some ⟨id, member⟩
  | _, _ => none

theorem membership_of_none {db : Database} {id userId : String} (hid : id ≠ "")
    (h : findMember db id userId = none) : membership textColumns db userId (.text id)
      = .error (.forbidden "You are not a member of this workspace") := by
  rw [membership, if_neg (by simp [Param.truthy, hid])]
  show (Except.ok (findMember db id userId) >>= _ : Except HttpError _) = _
  rw [h]
  rfl

theorem membership_of_some {db : Database} {id userId : String} (hid : id ≠ "")
    {m : WorkspaceMember} (h : findMember db id userId = some m) :
    membership textColumns db userId (.text id) = .ok (some (.text id, m)) := by
  rw [membership, if_neg (by simp [Param.truthy, hid])]
  show (Except.ok (findMember db id userId) >>= _ : Except HttpError _) = _
  rw [h]
  rfl

/-- A guard that looks up the same and makes the same of it. -/
theorem lookUp_ensures (hids : IdsGiven s.db) (r : Request) (userId : String)
    {f : Option String → ApiProg (Option Attached)}
    {f' : String → WorkspaceMember → ApiProg (Option Attached)}
    {g : Option (Param × WorkspaceMember) → Except HttpError GuardedRequest}
    (hsome : ∀ id, f (some id) = checkMember id userId >>= f' id)
    (hnone : ∀ s' : TaskState, s'.db = s.db → Ensures (apiExec pg)
      (fun out s'' => s''.db = s.db ∧ out = (g none).map GuardedRequest.attached) (f none) s')
    (hmember : ∀ id m (s' : TaskState), s'.db = s.db → Ensures (apiExec pg)
      (fun out s'' => s''.db = s.db ∧
        out = (g (some (.text id, m))).map GuardedRequest.attached) (f' id m) s') :
    Ensures (apiExec pg) (fun out s' => s'.db = s.db ∧
      out = (lookUp textColumns s.db r userId >>= g).map GuardedRequest.attached)
      (resolveWorkspace r >>= f) s := by
  rw [ensures_bind]
  refine (resolveWorkspace_ensures hids r).mono ?_
  rintro out s' ⟨hdb, hresolved⟩
  unfold lookUp
  generalize namedWorkspace textColumns s.db r.workspaceId r.slug = named at hresolved
  cases hresolved with
  | none named hfalsy =>
      have hlookUp : membership textColumns s.db userId named = .ok none := by
        rw [membership, hfalsy]
        rfl
      show Ensures _ (fun out s' => s'.db = s.db ∧
        out = (membership textColumns s.db userId named >>= g).map _) (f none) s'
      rw [hlookUp]
      exact hnone s' hdb
  | some id hid =>
      show Ensures _ (fun out s' => s'.db = s.db ∧
        out = (membership textColumns s.db userId (.text id) >>= g).map _) (f (some id)) s'
      rw [hsome, ← hdb]
      intro ω
      cases hm : findMember s'.db id userId with
      | none =>
          have hnotFound : (apiExec pg ω (.findMember id userId) s').2 = none := hm
          rw [membership_of_none hid hm, hnotFound]
          exact ⟨rfl, rfl⟩
      | some m =>
          have hfound : (apiExec pg ω (.findMember id userId) s').2 = some m := hm
          have hrest := hmember id m (s'.wait ω) hdb
          rw [← hdb] at hrest
          rw [membership_of_some hid hm, hfound]
          exact hrest
  | rejected => exact ⟨hdb, rfl⟩
  | odd => exact ⟨hdb, rfl⟩

/-- The program of `RoleGuard` does what the guard does, and changes no row. -/
theorem roleGuard_runs (hids : IdsGiven s.db) {roles : Option (List Role)}
    (hroles : roles = none ∨ roles = some []) (r : Request) :
    Ensures (apiExec pg) (fun out s' => s'.db = s.db ∧
      out = (RoleGuard.canActivate textColumns s.db roles r.fresh).map
        GuardedRequest.attached) (roleGuard roles r) s := by
  unfold roleGuard
  cases huser : r.user with
  | none =>
      refine ⟨rfl, ?_⟩
      rw [roleGuard_of_noUser (show r.fresh.request.user = none from huser)]
      rfl
  | some user =>
      rw [roleGuard_eq hroles (show r.fresh.request.user = some user from huser)]
      refine lookUp_ensures hids r user.userId (fun id => rfl) ?_ ?_
      · intro s' hdb
        rcases hroles with rfl | rfl <;> exact ⟨hdb, rfl⟩
      · intro id m s' hdb
        rcases hroles with rfl | rfl <;> exact ⟨hdb, rfl⟩

/-- And so does that of `PermissionGuard`, where nothing is attached yet. -/
theorem permissionGuard_runs (hids : IdsGiven s.db) {required : List Permission}
    (hrequired : required ≠ []) (r : Request) :
    Ensures (apiExec pg) (fun out s' => s'.db = s.db ∧
      out = (PermissionGuard.canActivate textColumns s.db (some required) r.fresh).map
        GuardedRequest.attached) (permissionGuard required r none) s := by
  unfold permissionGuard
  rw [if_neg hrequired]
  cases huser : r.user with
  | none =>
      refine ⟨rfl, ?_⟩
      rw [permissionGuard_of_noUser hrequired (show r.fresh.request.user = none from huser)]
      rfl
  | some user =>
      rw [permissionGuard_eq hrequired (show r.fresh.request.user = some user from huser) rfl]
      refine lookUp_ensures hids r user.userId (fun id => rfl) ?_ ?_
      · intro s' hdb
        exact ⟨hdb, rfl⟩
      · intro id m s' hdb
        show Ensures _ _ (checkPermissions required ⟨id, m⟩) s'
        unfold checkPermissions
        by_cases hall : (required.all fun perm => perm ∈ rolePermissions m.role) = true
        · rw [if_pos hall]
          refine ⟨hdb, ?_⟩
          rw [passPermitted, permit, if_pos hall]
          rfl
        · rw [if_neg hall]
          refine ⟨hdb, ?_⟩
          rw [passPermitted, permit, if_neg hall]
          rfl

end Programs

end PlatformApi
