import TaskPlatform.ApiRuns
import TaskPlatform.CacheAside
import TaskPlatform.DelimitedText
import TaskPlatform.TaskCoherence

/-! # Reads that are answered from Redis

    The five reads that look into the cache first, the key and the answer of each, and
    what a write does to the answers: it leaves every answer as it was whose key the
    service takes out afterwards, but for what a cascade takes along. -/

namespace PlatformApi

open AsyncProgram PlatformEntities PlatformTasks RowTable GlobPattern

/-! ## Reads -/

/-- The reads whose answers Redis keeps. -/
inductive CachedRead where
  | task (id workspaceId : String)
  | tasks (workspaceId projectId : String) (query : QueryTaskDto)
  | projects (workspaceId : String)
  | workspaceById (id : String)
  | workspaceBySlug (slug : String)

namespace CachedRead

/-- The call that makes the read. -/
def call : CachedRead → ApiCall
  | .task id w => .task (.findById id w)
  | .tasks w p q => .task (.getTasks w p q)
  | .projects w => .getProjects w
  | .workspaceById id => .findById id
  | .workspaceBySlug slug => .findBySlug slug

/-- The key it looks under.  The one of a task does not name the workspace. -/
def key : CachedRead → String
  | .task id _ => getTaskCacheKey id
  | .tasks w p q => getListCacheKey w p q
  | .projects w => getProjectsCacheKey w
  | .workspaceById id => getCacheKey id false
  | .workspaceBySlug slug => getCacheKey slug true

/-- What the database answers, if it finds anything. -/
def answer (pg : PostgresText) (db : Database) : CachedRead → Option CacheValue
  | .task id w => (findOneTask db id w).map .task
  | .tasks w p q => some (.tasks (listTasks pg db w p q))
  | .projects w => some (.projects (findActiveProjects db w))
  | .workspaceById id =>
      ((db.workspaces.find? fun w => w.id = id).map (loadWorkspace db)).map .workspace
  | .workspaceBySlug slug =>
      ((db.workspaces.find? fun w => w.slug = slug).map (loadWorkspace db)).map .workspace

/-- What was found, or an exception. -/
def orMissing {α : Type} (message : String) : Option α → Except HttpError α
  | some a => .ok a
  | none => .error (.notFound message)

/-- What the read comes back with when the database is asked. -/
def outcome (pg : PostgresText) (db : Database) : CachedRead → Except HttpError Reply
  | .task id w =>
      (orMissing "Task not found in this workspace" (findOneTask db id w)).map fun t =>
        .task (.found t)
  | .tasks w p q => .ok (.task (.listed (.tasks (listTasks pg db w p q))))
  | .projects w => .ok (.projects (findActiveProjects db w))
  | .workspaceById id =>
      (orMissing "Workspace not found"
        ((db.workspaces.find? fun w => w.id = id).map (loadWorkspace db))).map .workspace
  | .workspaceBySlug slug =>
      (orMissing "Workspace not found"
        ((db.workspaces.find? fun w => w.slug = slug).map (loadWorkspace db))).map .workspace

end CachedRead

/-! ## Keys -/

/-- What the keys need to know of a workspace id, which is a uuid. -/
def IsId (s : String) : Prop := ':' ∉ s.toList ∧ s ≠ "id" ∧ s ≠ "slug"

instance (s : String) : Decidable (IsId s) :=
  inferInstanceAs (Decidable (_ ∧ _ ∧ _))

/-- List queries about workspaces, no two of which share a key. -/
structure KeysApart (Q : String → String → QueryTaskDto → Prop) : Prop where
  ids : ∀ w p q, Q w p q → IsId w
  apart : ∀ w p q w' p' q', Q w p q → Q w' p' q' →
    getListCacheKey w p q = getListCacheKey w' p' q' → w = w' ∧ p = p' ∧ q = q'

/-- The reads at hand: the list queries are in `Q`, and projects are asked for by the id
    of a workspace. -/
def Asked (Q : String → String → QueryTaskDto → Prop) : CachedRead → Prop
  | .tasks w p q => Q w p q
  | .projects w => IsId w
  | _ => True

/-- A key that begins with `workspace:`, and what stands before and after its second
    colon. -/
def underWorkspace (a x : String) : String := "workspace:" ++ a ++ (":" ++ x)

theorem underWorkspace_inj {a b x y : String} (ha : ':' ∉ a.toList) (hb : ':' ∉ b.toList)
    (h : underWorkspace a x = underWorkspace b y) : a = b ∧ x = y := by
  have h' : ("workspace:" ++ a ++ (":" ++ x)).toList
      = ("workspace:" ++ b ++ (":" ++ y)).toList := congrArg _ h
  simp only [String.toList_append, List.append_assoc] at h'
  obtain ⟨hab, hxy⟩ := DelimitedText.before_first ha hb (List.append_cancel_left h')
  exact ⟨String.toList_injective hab, String.toList_injective hxy⟩

theorem taskKey_ne_underWorkspace (id a x : String) :
    getTaskCacheKey id ≠ underWorkspace a x := by
  intro h
  have htask : (getTaskCacheKey id).toList.head? = some 't' := by
    rw [getTaskCacheKey, String.toList_append]
    rfl
  have hother : (underWorkspace a x).toList.head? = some 'w' := by
    simp only [underWorkspace, String.toList_append, List.append_assoc]
    rfl
  rw [h, hother] at htask
  exact absurd htask (by decide)

/-- The key of every other read begins with `workspace:`. -/
theorem listKey_place (w p : String) (q : QueryTaskDto) :
    ∃ rest, getListCacheKey w p q = underWorkspace w ("project:" ++ rest) := by
  obtain ⟨rest, h⟩ := listKey_split w p q
  refine ⟨p ++ (":tasks:" ++ rest), ?_⟩
  apply String.toList_injective
  rw [h]
  simp only [underWorkspace, String.toList_append, List.append_assoc]
  rfl

theorem projectsKey_place (w : String) :
    getProjectsCacheKey w = underWorkspace w "projects" := rfl

theorem workspaceKey_place (idOrSlug : String) (isSlug : Bool) :
    getCacheKey idOrSlug isSlug
      = underWorkspace (if isSlug then "slug" else "id") idOrSlug := by
  cases isSlug with
  | false =>
      show "workspace:id:" ++ idOrSlug = "workspace:" ++ "id" ++ (":" ++ idOrSlug)
      rw [← String.append_assoc]
      rfl
  | true =>
      show "workspace:slug:" ++ idOrSlug = "workspace:" ++ "slug" ++ (":" ++ idOrSlug)
      rw [← String.append_assoc]
      rfl

theorem projects_ne_project (rest : String) : "projects" ≠ "project:" ++ rest := by
  intro h
  have h' : "projects".toList = ("project:" ++ rest).toList := congrArg _ h
  rw [String.toList_append] at h'
  have h₇ := congrArg (fun l : List Char => l[7]?) h'
  rw [List.getElem?_append_left (by decide)] at h₇
  exact absurd h₇ (by decide)

section Keys

variable {Q : String → String → QueryTaskDto → Prop} (hQ : KeysApart Q)

/-- Only reads of the task share the key of a task. -/
theorem taskKey_apart {id : String} {r : CachedRead} (h : r.key = getTaskCacheKey id) :
    ∃ w, r = .task id w := by
  cases r with
  | task id' w => exact ⟨w, by rw [getTaskCacheKey_injective h]⟩
  | tasks w p q =>
      obtain ⟨rest, hkey⟩ := listKey_place w p q
      exact absurd (h.symm.trans hkey) (taskKey_ne_underWorkspace id _ _)
  | projects w =>
      exact absurd (h.symm.trans (projectsKey_place w)) (taskKey_ne_underWorkspace id _ _)
  | workspaceById id' =>
      exact absurd (h.symm.trans (workspaceKey_place id' false))
        (taskKey_ne_underWorkspace id _ _)
  | workspaceBySlug slug =>
      exact absurd (h.symm.trans (workspaceKey_place slug true))
        (taskKey_ne_underWorkspace id _ _)

/-- The words that keys of workspaces begin with hold no colon. -/
theorem word_colon (isSlug : Bool) : ':' ∉ (if isSlug then "slug" else "id").toList := by
  cases isSlug <;> decide

/-- The key of a workspace is shared by no list, of tasks or of projects. -/
theorem word_ne_id {w idOrSlug x : String} {isSlug : Bool} (hw : IsId w) :
    getCacheKey idOrSlug isSlug ≠ underWorkspace w x := by
  intro h
  rw [workspaceKey_place] at h
  have hword := (underWorkspace_inj (word_colon isSlug) hw.1 h).1
  cases isSlug with
  | false => exact hw.2.1 hword.symm
  | true => exact hw.2.2 hword.symm

include hQ in
theorem listKey_apart {w p : String} {q : QueryTaskDto} (hq : Q w p q) {r : CachedRead}
    (hr : Asked Q r) (h : r.key = getListCacheKey w p q) : r = .tasks w p q := by
  obtain ⟨rest, hkey⟩ := listKey_place w p q
  have hw := hQ.ids w p q hq
  cases r with
  | task id w' => exact absurd h (taskKey_ne_listKey id w p q)
  | tasks w' p' q' =>
      obtain ⟨rfl, rfl, rfl⟩ := hQ.apart w' p' q' w p q hr hq h
      rfl
  | projects w' =>
      have hplace := underWorkspace_inj hr.1 hw.1
        ((projectsKey_place w').symm.trans (h.trans hkey))
      exact absurd hplace.2 (projects_ne_project rest)
  | workspaceById id => exact absurd (h.trans hkey) (word_ne_id hw)
  | workspaceBySlug slug => exact absurd (h.trans hkey) (word_ne_id hw)

include hQ in
theorem projectsKey_apart {w : String} (hw : IsId w) {r : CachedRead} (hr : Asked Q r)
    (h : r.key = getProjectsCacheKey w) : r = .projects w := by
  rw [projectsKey_place] at h
  cases r with
  | task id w' => exact absurd h (taskKey_ne_underWorkspace id _ _)
  | tasks w' p q =>
      obtain ⟨rest, hkey⟩ := listKey_place w' p q
      have hplace := underWorkspace_inj (hQ.ids w' p q hr).1 hw.1 (hkey.symm.trans h)
      exact absurd hplace.2.symm (projects_ne_project rest)
  | projects w' =>
      rw [(underWorkspace_inj hr.1 hw.1 ((projectsKey_place w').symm.trans h)).1]
  | workspaceById id => exact absurd h (word_ne_id hw)
  | workspaceBySlug slug => exact absurd h (word_ne_id hw)

include hQ in
/-- The key of a workspace by its id or by its slug. -/
theorem workspaceKey_apart {idOrSlug : String} (isSlug : Bool) {r : CachedRead}
    (hr : Asked Q r) (h : r.key = getCacheKey idOrSlug isSlug) :
    r = if isSlug then .workspaceBySlug idOrSlug else .workspaceById idOrSlug := by
  cases r with
  | task id w =>
      exact absurd (h.trans (workspaceKey_place idOrSlug isSlug))
        (taskKey_ne_underWorkspace id _ _)
  | tasks w p q =>
      obtain ⟨rest, hkey⟩ := listKey_place w p q
      exact absurd (h.symm.trans hkey) (word_ne_id (hQ.ids w p q hr))
  | projects w => exact absurd (h.symm.trans (projectsKey_place w)) (word_ne_id hr)
  | workspaceById id =>
      have h' : getCacheKey id false = getCacheKey idOrSlug isSlug := h
      rw [workspaceKey_place, workspaceKey_place] at h'
      obtain ⟨hword, rfl⟩ := underWorkspace_inj (word_colon false) (word_colon isSlug) h'
      cases isSlug with
      | false => rfl
      | true => exact absurd hword (by decide)
  | workspaceBySlug slug =>
      have h' : getCacheKey slug true = getCacheKey idOrSlug isSlug := h
      rw [workspaceKey_place, workspaceKey_place] at h'
      obtain ⟨hword, rfl⟩ := underWorkspace_inj (word_colon true) (word_colon isSlug) h'
      cases isSlug with
      | true => rfl
      | false => exact absurd hword (by decide)

end Keys

/-! ## Answers and writes -/

section Writes

variable {pg : PostgresText} {db db' : Database}

/-- The reads look at four tables. -/
theorem answer_congr (htasks : db'.tasks = db.tasks) (husers : db'.users = db.users)
    (hprojects : db'.projects = db.projects) (hworkspaces : db'.workspaces = db.workspaces)
    (r : CachedRead) : r.answer pg db' = r.answer pg db := by
  obtain ⟨users, workspaces, members, projects, tasks, comments, notifications⟩ := db
  obtain ⟨users', workspaces', members', projects', tasks', comments', notifications'⟩ := db'
  subst htasks husers hprojects hworkspaces
  cases r <;> rfl

/-! ### Tasks -/

/-- A task that is added changes the lists of its project only. -/
theorem answer_append_task {row : Task} (hw : Plain row.workspaceId)
    (hp : Plain row.projectId) {r : CachedRead} {v : CacheValue}
    (h : r.answer pg db = some v) :
    globMatch (getListCachePattern row.workspaceId row.projectId) r.key = true ∨
      r.answer pg { db with tasks := db.tasks ++ [row] } = some v := by
  cases r with
  | task id w =>
      obtain ⟨t, ht, rfl⟩ := Option.map_eq_some_iff.mp h
      refine Or.inr ?_
      show (findOneTask _ id w).map _ = _
      rw [findOneTask_append row ht]
      rfl
  | tasks w p q =>
      by_cases hrow : row.workspaceId = w ∧ row.projectId = p
      · obtain ⟨rfl, rfl⟩ := hrow
        exact Or.inl (pattern_matches_key hw hp q)
      · refine Or.inr ?_
        rw [← h]
        show some (CacheValue.tasks (listTasks pg _ w p q)) = _
        rw [listTasks_append hrow]
        rfl
  | projects w => exact Or.inr h
  | workspaceById id => exact Or.inr h
  | workspaceBySlug slug => exact Or.inr h

/-- A task that is overwritten changes what it concerns. -/
theorem answer_replace_task (hids : Unique Task.id db.tasks) {old row : Task}
    (hold : lookup Task.id row.id db.tasks = some old) (hsame : SameIdentity row old)
    (hw : Plain row.workspaceId) (hp : Plain row.projectId) (r : CachedRead) :
    Concerns row r.key ∨
      r.answer pg { db with tasks := RowTable.replace Task.id row db.tasks }
        = r.answer pg db := by
  cases r with
  | task id w =>
      by_cases hid : row.id = id
      · exact Or.inl (Or.inl (by rw [hid]; rfl))
      · refine Or.inr ?_
        show (findOneTask _ id w).map _ = _
        rw [findOneTask_replace hid]
        rfl
  | tasks w p q =>
      by_cases hrow : row.workspaceId = w ∧ row.projectId = p
      · obtain ⟨rfl, rfl⟩ := hrow
        exact Or.inl (Or.inr (pattern_matches_key hw hp q))
      · refine Or.inr ?_
        show some (CacheValue.tasks (listTasks pg _ w p q)) = _
        rw [listTasks_replace hids hold hsame hrow]
        rfl
  | projects w => exact Or.inr rfl
  | workspaceById id => exact Or.inr rfl
  | workspaceBySlug slug => exact Or.inr rfl

/-! ### Projects -/

/-- Another list of projects changes the lists of the workspaces where it differs. -/
theorem answer_projects (db : Database) {projects : List Project} (r : CachedRead)
    (h : ∀ w, r = .projects w →
      projects.filter (fun p => p.workspaceId = w && p.status = "ACTIVE")
      = db.projects.filter fun p => p.workspaceId = w && p.status = "ACTIVE") :
    r.answer pg { db with projects := projects } = r.answer pg db := by
  cases r with
  | projects w =>
      show some (CacheValue.projects (List.insertionSort _ (projects.filter _))) = _
      rw [h w rfl]
      rfl
  | task id w => rfl
  | tasks w p q => rfl
  | workspaceById id => rfl
  | workspaceBySlug slug => rfl

/-- A project is listed for its workspace only. -/
theorem unlisted {p : Project} {w : String} (h : p.workspaceId ≠ w) :
    (p.workspaceId = w && p.status = "ACTIVE") = false := by
  simp [h]

theorem answer_append_project (p : Project) (r : CachedRead) :
    r.key = getProjectsCacheKey p.workspaceId ∨
      r.answer pg { db with projects := db.projects ++ [p] } = r.answer pg db := by
  by_cases hr : r = .projects p.workspaceId
  · exact Or.inl (by rw [hr]; rfl)
  · refine Or.inr (answer_projects db r ?_)
    rintro w rfl
    have hw : p.workspaceId ≠ w := fun hw => hr (by rw [hw])
    exact filter_append_ne db.projects (unlisted hw)

/-- A project that is saved stays in its workspace. -/
theorem answer_save_project (hids : Unique Project.id db.projects) {old p : Project}
    (hold : old ∈ db.projects) (hid : old.id = p.id) (hw : old.workspaceId = p.workspaceId)
    (r : CachedRead) :
    r.key = getProjectsCacheKey p.workspaceId ∨
      r.answer pg { db with projects := upsert Project.id p db.projects }
        = r.answer pg db := by
  by_cases hr : r = .projects p.workspaceId
  · exact Or.inl (by rw [hr]; rfl)
  · refine Or.inr (answer_projects db r ?_)
    rintro w rfl
    have hne : p.workspaceId ≠ w := fun hw => hr (by rw [hw])
    refine filter_upsert (unlisted hne) ?_
    intro q hq hkey
    rw [hids.eq_of_key hq hold (hkey.trans hid.symm)]
    exact unlisted (hw ▸ hne)

/-! ### Workspaces -/

/-- Another list of workspaces in which the one that was found is found again. -/
theorem answer_workspaces {workspaces : List Workspace} {r : CachedRead} {v : CacheValue}
    (hids : ∀ id w, r = .workspaceById id →
      db.workspaces.find? (fun w => w.id = id) = some w →
      workspaces.find? (fun w => w.id = id) = some w)
    (hslugs : ∀ slug w, r = .workspaceBySlug slug →
      db.workspaces.find? (fun w => w.slug = slug) = some w →
      workspaces.find? (fun w => w.slug = slug) = some w)
    (h : r.answer pg db = some v) :
    r.answer pg { db with workspaces := workspaces } = some v := by
  cases r with
  | workspaceById id =>
      obtain ⟨_, hloaded, rfl⟩ := Option.map_eq_some_iff.mp h
      obtain ⟨w, hw, rfl⟩ := Option.map_eq_some_iff.mp hloaded
      show ((workspaces.find? _).map _).map _ = _
      rw [hids id w rfl hw]
      rfl
  | workspaceBySlug slug =>
      obtain ⟨_, hloaded, rfl⟩ := Option.map_eq_some_iff.mp h
      obtain ⟨w, hw, rfl⟩ := Option.map_eq_some_iff.mp hloaded
      show ((workspaces.find? _).map _).map _ = _
      rw [hslugs slug w rfl hw]
      rfl
  | task id w => exact h
  | tasks w p q => exact h
  | projects w => exact h

/-- A workspace that is added hides no other. -/
theorem answer_append_workspace (row : Workspace) {r : CachedRead} {v : CacheValue}
    (h : r.answer pg db = some v) :
    r.answer pg { db with workspaces := db.workspaces ++ [row] } = some v := by
  refine answer_workspaces ?_ ?_ h
  · intro id w _ hw
    rw [List.find?_append, hw]
    rfl
  · intro slug w _ hw
    rw [List.find?_append, hw]
    rfl

/-- A workspace that is saved with its slug changes what is found by its id and its
    slug. -/
theorem answer_save_workspace (hids : Unique Workspace.id db.workspaces)
    {old row : Workspace} (hold : old ∈ db.workspaces) (hid : old.id = row.id)
    (hslug : old.slug = row.slug) {r : CachedRead} {v : CacheValue}
    (h : r.answer pg db = some v) :
    (r.key = getCacheKey row.id false ∨ r.key = getCacheKey row.slug true) ∨
      r.answer pg { db with workspaces := upsert Workspace.id row db.workspaces }
        = some v := by
  by_cases hr : r = .workspaceById row.id ∨ r = .workspaceBySlug row.slug
  · rcases hr with rfl | rfl
    · exact Or.inl (Or.inl rfl)
    · exact Or.inl (Or.inr rfl)
  · refine Or.inr (answer_workspaces ?_ ?_ h)
    · rintro id w rfl hw
      have hne : row.id ≠ id := fun hne => hr (Or.inl (by rw [hne]))
      rw [← hw, upsert_of_mem hold hid.symm]
      refine find_replace (by simp [hne]) ?_
      intro w' _ hkey
      simp [hkey, hne]
    · rintro slug w rfl hw
      have hne : row.slug ≠ slug := fun hne => hr (Or.inr (by rw [hne]))
      rw [← hw, upsert_of_mem hold hid.symm]
      refine find_replace (by simp [hne]) ?_
      intro w' hw' hkey
      rw [hids.eq_of_key hw' hold (hkey.trans hid.symm), hslug]
      simp [hne]

/-- So does the deletion of a workspace. -/
theorem answer_filter_workspace (db : Database) (hids : Unique Workspace.id db.workspaces)
    {old : Workspace} (hold : old ∈ db.workspaces) {r : CachedRead} {v : CacheValue}
    (h : r.answer pg db = some v) :
    (r.key = getCacheKey old.id false ∨ r.key = getCacheKey old.slug true) ∨
      r.answer pg { db with workspaces := db.workspaces.filter fun w => w.id ≠ old.id }
        = some v := by
  by_cases hr : r = .workspaceById old.id ∨ r = .workspaceBySlug old.slug
  · rcases hr with rfl | rfl
    · exact Or.inl (Or.inl rfl)
    · exact Or.inl (Or.inr rfl)
  · refine Or.inr (answer_workspaces ?_ ?_ h)
    · rintro id w rfl hw
      have hid : w.id = id := by simpa using List.find?_some hw
      refine find_filter hw (decide_eq_true ?_)
      rw [hid]
      exact fun hne => hr (Or.inl (by rw [hne]))
    · rintro slug w rfl hw
      have hslug : w.slug = slug := by simpa using List.find?_some hw
      refine find_filter hw (decide_eq_true ?_)
      intro hwid
      have hsame := hids.eq_of_key (List.mem_of_find?_eq_some hw) hold hwid
      exact hr (Or.inr (by rw [← hsame, hslug]))

/-! ### Deletions -/

/-- The task goes with the deletion. -/
def takes (db : Database) : ApiOp → Task → Bool
  | .removeProject id, t =>
      (cascadeOf db fun t => t.projectId = id).any fun r => r.id = t.id
  | .removeWorkspace id, t => (cascadeOf db (ofWorkspace db id)).any fun r => r.id = t.id
  | _, _ => false

/-- What is deleted by a cascade has left the cache: no task that goes is cached, none of
    them is counted in a list that is, and with the list of its projects no workspace
    goes that has one to show. -/
structure NothingLeft (pg : PostgresText) (Q : String → String → QueryTaskDto → Prop)
    (ω : Choice) (op : ApiOp) (s : TaskState) : Prop where
  tasks : ∀ t ∈ s.db.tasks, takes s.db op t = true →
    (s.wait ω).cache (getTaskCacheKey t.id) = none
  lists : ∀ w p q, Q w p q → (s.wait ω).cache (getListCacheKey w p q) ≠ none →
    ∀ t ∈ s.db.tasks, takes s.db op t = true →
      (inProject w p t && passesFilters pg q t) = false
  projects : ∀ id, op = .removeWorkspace id → IsId id →
    (s.wait ω).cache (getProjectsCacheKey id) ≠ none → findActiveProjects s.db id = []

/-- The list of projects that a workspace leaves in the cache. -/
def projectsLeft (ω : Choice) (s : TaskState) : ApiOp → Bool
  | .removeWorkspace id =>
      IsId id && ((s.wait ω).cache (getProjectsCacheKey id)).isSome
        && !(findActiveProjects s.db id).isEmpty
  | _ => false

theorem projectsLeft_iff {ω : Choice} {s : TaskState} {op : ApiOp} :
    projectsLeft ω s op = false ↔ ∀ id, op = .removeWorkspace id → IsId id →
      (s.wait ω).cache (getProjectsCacheKey id) ≠ none → findActiveProjects s.db id = [] := by
  constructor
  · rintro hleft id rfl hid hcached
    have hsome := Option.isSome_iff_ne_none.mpr hcached
    by_contra hne
    have hshown : (findActiveProjects s.db id).isEmpty = false := by
      rw [← Bool.not_eq_true, List.isEmpty_iff]
      exact hne
    simp [projectsLeft, hid, hsome, hshown] at hleft
  · intro h
    cases op with
    | removeWorkspace id =>
        rw [← Bool.not_eq_true, projectsLeft, Bool.and_eq_true, Bool.and_eq_true]
        rintro ⟨⟨hid, hsome⟩, hshown⟩
        rw [h id rfl (of_decide_eq_true hid) (Option.isSome_iff_ne_none.mp hsome)] at hshown
        cases hshown
    | _ => rfl

/-- With the list queries given one by one, what is left can be looked up. -/
theorem nothingLeft_iff {pg : PostgresText} {queries : List (String × String × QueryTaskDto)}
    {ω : Choice} {op : ApiOp} {s : TaskState} :
    ((∀ t ∈ s.db.tasks, takes s.db op t = true →
        (s.wait ω).cache (getTaskCacheKey t.id) = none) ∧
      (∀ x ∈ queries, (s.wait ω).cache (getListCacheKey x.1 x.2.1 x.2.2) ≠ none →
        ∀ t ∈ s.db.tasks, takes s.db op t = true →
          (inProject x.1 x.2.1 t && passesFilters pg x.2.2 t) = false) ∧
      projectsLeft ω s op = false) ↔
        NothingLeft pg (fun w p q => (w, p, q) ∈ queries) ω op s :=
  ⟨fun h => ⟨h.1, fun w p q hq => h.2.1 (w, p, q) hq, projectsLeft_iff.mp h.2.2⟩,
    fun h => ⟨h.tasks, fun x hx => h.lists x.1 x.2.1 x.2.2 hx,
      projectsLeft_iff.mpr h.projects⟩⟩

instance (pg : PostgresText) (queries : List (String × String × QueryTaskDto)) (ω : Choice)
    (op : ApiOp) (s : TaskState) :
    Decidable (NothingLeft pg (fun w p q => (w, p, q) ∈ queries) ω op s) :=
  decidable_of_iff _ nothingLeft_iff

/-- A cascade that takes nothing of what is cached. -/
theorem answer_remove_tasks {gone : Task → Bool} {r : CachedRead} {v : CacheValue}
    (htask : ∀ id w, r = .task id w → ∀ t ∈ db.tasks, t.id = id →
      ((cascadeOf db gone).any fun r => r.id = t.id) = false)
    (hlist : ∀ w p q, r = .tasks w p q → ∀ t ∈ db.tasks,
      ((cascadeOf db gone).any fun r => r.id = t.id) = true →
        (inProject w p t && passesFilters pg q t) = false)
    (h : r.answer pg db = some v) : r.answer pg (removeTasks db gone) = some v := by
  cases r with
  | task id w =>
      obtain ⟨t, ht, rfl⟩ := Option.map_eq_some_iff.mp h
      obtain ⟨row, hrow, rfl⟩ := Option.map_eq_some_iff.mp ht
      have hmem := List.mem_of_find?_eq_some hrow
      obtain ⟨-, -, hid, -, -⟩ := findOneTask_some ht
      show (((db.tasks.filter _).find? _).map _).map _ = _
      rw [find_filter hrow (by rw [htask id w rfl row hmem hid]; rfl)]
      rfl
  | tasks w p q =>
      have hrows : ((removeTasks db gone).tasks.filter (inProject w p)).filter
          (passesFilters pg q) = (db.tasks.filter (inProject w p)).filter
            (passesFilters pg q) := by
        show ((db.tasks.filter _).filter _).filter _ = _
        rw [List.filter_filter, List.filter_filter, List.filter_filter]
        refine List.filter_congr ?_
        intro t ht
        cases htaken : (cascadeOf db gone).any fun r => r.id = t.id with
        | false => simp
        | true =>
            have hnot := hlist w p q rfl t ht htaken
            rw [Bool.and_comm] at hnot
            simp [hnot]
      rw [← h]
      show some (CacheValue.tasks (pageOf pg _ q _)) = some (.tasks (pageOf pg _ q _))
      unfold pageOf
      rw [hrows]
      rfl
  | projects w => exact h
  | workspaceById id => exact h
  | workspaceBySlug slug => exact h

/-- The cascade of a deletion after which nothing of it is left in the cache. -/
theorem NothingLeft.answer {Q : String → String → QueryTaskDto → Prop} {s : TaskState}
    {ω : Choice} {op : ApiOp} {gone : Task → Bool} (hleft : NothingLeft pg Q ω op s)
    (htakes : ∀ t, takes s.db op t = (cascadeOf s.db gone).any fun r => r.id = t.id)
    {r : CachedRead} {v : CacheValue} (hr : Asked Q r)
    (hc : (s.wait ω).cache r.key = some v) (hv : r.answer pg s.db = some v) :
    r.answer pg (removeTasks s.db gone) = some v := by
  refine answer_remove_tasks ?_ ?_ hv
  · rintro id w rfl t ht rfl
    rw [← htakes, ← Bool.not_eq_true]
    intro htaken
    have hnone := hleft.tasks t ht htaken
    have hsome : (s.wait ω).cache (getTaskCacheKey t.id) = some v := hc
    rw [hnone] at hsome
    cases hsome
  · rintro w p q rfl t ht htaken
    rw [← htakes] at htaken
    refine hleft.lists w p q hr ?_ t ht htaken
    intro hnone
    have hsome : (s.wait ω).cache (getListCacheKey w p q) = some v := hc
    rw [hnone] at hsome
    cases hsome

end Writes

end PlatformApi
