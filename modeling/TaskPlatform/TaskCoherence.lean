import TaskPlatform.IdSpelling
import TaskPlatform.TaskRaces

/-! # The cache against the database

    A reader fills the cache in a step of its own, after its query; a writer deletes
    the keys in steps of their own, after its save.  Whether an entry is right when
    everything has come to rest depends on how these steps fall.

    The invariant: every entry is what the database would answer now, or some call
    that is still in flight will take its key out.  Writers keep it by themselves
    (what a write makes stale, the writer will drop); a fill keeps it exactly when
    the value is not older than the last write of which no invalidation is left.
    At rest no call is in flight, so every entry is right.

    The calls are those that spell their ids as the columns do, since the keys are made of
    the texts of the requests. -/

namespace PlatformTasks

open AsyncProgram Interleaving PlatformEntities RowTable GlobPattern

/-! ## Keys -/

/-- The pattern of a project matches every list key of the project. -/
theorem pattern_matches_key {w p : String} (hw : Plain w) (hp : Plain p)
    (q : QueryTaskDto) :
    globMatch (getListCachePattern w p) (getListCacheKey w p q) = true := by
  have htext : Plain ("workspace:" ++ w ++ ":project:" ++ p ++ ":tasks:") := by
    have h₁ : Plain "workspace:" := by decide
    have h₂ : Plain ":project:" := by decide
    have h₃ : Plain ":tasks:" := by decide
    exact (((h₁.append hw).append h₂).append hp).append h₃
  obtain ⟨rest, hrest⟩ := listKey_split w p q
  rw [getListCachePattern, globMatch_prefix_star htext, hrest]
  exact ⟨rest.toList, String.toList_append.symm⟩

section Coherence

variable (pg : PostgresText)

/-! ## What the database would answer -/

/-- An entry under the key of a task is the task as the database has it now; an entry
    under a list key is what every query with this key returns now. -/
structure Current (db : Database) (key : String) (v : CacheValue) : Prop where
  task : ∀ id, key = getTaskCacheKey id →
    ∃ t w, v = .task t ∧ findOneTask db id w = some t
  list : ∀ w p q, key = getListCacheKey w p q → v = .tasks (listTasks pg db w p q)

variable {pg}

theorem Current.of_same {db db' : Database} {key : String} {v : CacheValue}
    (h : Current pg db key v) (htasks : db'.tasks = db.tasks)
    (husers : db'.users = db.users) : Current pg db' key v := by
  have huser : findUser db' = findUser db := by
    funext id
    unfold findUser
    rw [husers]
  have hload : loadTask db' = loadTask db := by
    funext t
    unfold loadTask
    rw [huser]
  constructor
  · intro id hkey
    obtain ⟨t, w, hv, hfind⟩ := h.task id hkey
    exact ⟨t, w, hv, by rw [findOneTask, htasks, hload]; exact hfind⟩
  · intro w p q hkey
    rw [listTasks, htasks, huser]
    exact h.list w p q hkey

/-- A row that is not of the project is no part of its lists. -/
theorem inProject_ne {w p : String} {t : Task}
    (h : ¬ (t.workspaceId = w ∧ t.projectId = p)) : inProject w p t = false := by
  by_cases hw : t.workspaceId = w
  · have hp : ¬ t.projectId = p := fun hp => h ⟨hw, hp⟩
    simp [inProject, hp]
  · simp [inProject, hw]

/-- Overwriting a row changes no other task. -/
theorem findOneTask_replace {db : Database} {row : Task} {id : String} (hne : row.id ≠ id)
    (w : String) :
    findOneTask { db with tasks := RowTable.replace Task.id row db.tasks } id w
      = findOneTask db id w := by
  show ((RowTable.replace Task.id row db.tasks).find? _).map _ = _
  rw [find_replace]
  · rfl
  · simp [hne]
  · intro r hr hid
    simp [hid, hne]

/-- Nor does it change the lists of other projects, if the row stays where it was. -/
theorem listTasks_replace {db : Database} (hids : Unique Task.id db.tasks) {old row : Task}
    (hold : lookup Task.id row.id db.tasks = some old) (hsame : SameIdentity row old)
    {w p : String} (hne : ¬ (row.workspaceId = w ∧ row.projectId = p)) (q : QueryTaskDto) :
    listTasks pg { db with tasks := RowTable.replace Task.id row db.tasks } w p q
      = listTasks pg db w p q := by
  obtain ⟨holdmem, holdid⟩ := lookup_mem hold
  show pageOf pg _ q ((RowTable.replace Task.id row db.tasks).filter _) = _
  rw [filter_replace (inProject_ne hne)]
  · rfl
  · intro r hr hid
    rw [hids.eq_of_key hr holdmem (hid.trans holdid.symm)]
    refine inProject_ne ?_
    rw [← hsame.workspaceId, ← hsame.projectId]
    exact hne

/-- A row that is added changes no task that was found. -/
theorem findOneTask_append {db : Database} {id w : String} {t : LoadedTask} (row : Task)
    (h : findOneTask db id w = some t) :
    findOneTask { db with tasks := db.tasks ++ [row] } id w = some t := by
  obtain ⟨r, hr, rfl⟩ := Option.map_eq_some_iff.mp h
  show ((db.tasks ++ [row]).find? _).map _ = _
  rw [List.find?_append, hr]
  rfl

/-- Nor does it change the lists of other projects. -/
theorem listTasks_append {db : Database} {row : Task} {w p : String}
    (hne : ¬ (row.workspaceId = w ∧ row.projectId = p)) (q : QueryTaskDto) :
    listTasks pg { db with tasks := db.tasks ++ [row] } w p q = listTasks pg db w p q := by
  show pageOf pg _ q ((db.tasks ++ [row]).filter _) = _
  rw [filter_append_ne db.tasks (inProject_ne hne)]
  rfl

/-- Overwriting a row by one of the same identity leaves every entry right that the
    row does not concern. -/
theorem Current.replace {db : Database} {key : String} {v : CacheValue}
    (h : Current pg db key v) (hids : Unique Task.id db.tasks) {old row : Task}
    (hold : lookup Task.id row.id db.tasks = some old) (hsame : SameIdentity row old)
    (hw : Plain row.workspaceId) (hp : Plain row.projectId)
    (hkey : ¬ Concerns row key) :
    Current pg { db with tasks := RowTable.replace Task.id row db.tasks } key v := by
  constructor
  · intro id hk
    obtain ⟨t, w, hv, hfind⟩ := h.task id hk
    have hne : row.id ≠ id := by
      rintro rfl
      exact hkey (Or.inl hk)
    exact ⟨t, w, hv, by rw [findOneTask_replace hne, hfind]⟩
  · intro w p q hk
    have hne : ¬ (row.workspaceId = w ∧ row.projectId = p) := by
      rintro ⟨rfl, rfl⟩
      exact hkey (Or.inr (hk ▸ pattern_matches_key hw hp q))
    rw [h.list w p q hk, listTasks_replace hids hold hsame hne]

/-- So does adding a row. -/
theorem Current.append {db : Database} {key : String} {v : CacheValue}
    (h : Current pg db key v) {row : Task} (hw : Plain row.workspaceId)
    (hp : Plain row.projectId)
    (hkey : globMatch (getListCachePattern row.workspaceId row.projectId) key ≠ true) :
    Current pg { db with tasks := db.tasks ++ [row] } key v := by
  constructor
  · intro id hk
    obtain ⟨t, w, hv, hfind⟩ := h.task id hk
    exact ⟨t, w, hv, findOneTask_append row hfind⟩
  · intro w p q hk
    have hne : ¬ (row.workspaceId = w ∧ row.projectId = p) := by
      rintro ⟨rfl, rfl⟩
      exact hkey (hk ▸ pattern_matches_key hw hp q)
    rw [h.list w p q hk, listTasks_append hne]

/-! ## The invariant -/

/-- Workspace and project ids are generated uuids: they hold no character that a
    pattern gives a meaning to. -/
structure PlainIds (db : Database) : Prop where
  workspaces : ∀ w ∈ db.workspaces, Plain w.id
  projects : ∀ p ∈ db.projects, Plain p.id

/-- Where the rows of a consistent database are placed, ids are plain. -/
theorem PlainIds.of_placed {db : Database} (h : PlainIds db) {t : Task}
    (hw : ∃ w ∈ db.workspaces, w.id = t.workspaceId)
    (hp : ∃ p ∈ db.projects, p.id = t.projectId) :
    Plain t.workspaceId ∧ Plain t.projectId := by
  obtain ⟨w, hw, hwid⟩ := hw
  obtain ⟨p, hp, hpid⟩ := hp
  exact ⟨hwid ▸ h.workspaces w hw, hpid ▸ h.projects p hp⟩

variable (pg)

theorem PlainIds.exec {s : TaskState} (h : PlainIds s.db) (ω : Choice) (op : TaskOp) :
    PlainIds (exec pg ω op s).1.db := by
  obtain ⟨-, hw, hp⟩ := exec_static pg ω op s
  constructor
  · rw [hw]
    exact h.workspaces
  · rw [hp]
    exact h.projects

/-- The key is out of the cache after an operation that drops it. -/
theorem exec_drops {ω : Choice} {op : TaskOp} {s : TaskState} {key : String}
    (h : Drops key op) : (exec pg ω op s).1.cache key = none := by
  cases op with
  | cacheDel k =>
      show (if key = k then none else (s.wait ω).cache key) = none
      have hk : k = key := h
      rw [if_pos hk.symm]
  | cacheDelPattern pattern =>
      show (if globMatch pattern key then none else (s.wait ω).cache key) = none
      have hk : globMatch pattern key = true := h
      rw [if_pos hk]
  | _ => exact absurd h not_false

/-- Task calls in flight. -/
abbrev TaskPool := Pool TaskOp TaskOp.Res HttpError TaskReply TaskState

/-- A fill writes what the database would answer at that moment, or the key is going
    to be dropped by a call that is in flight. -/
def FillIsCurrent (c : TaskPool) (i : Nat) : Prop :=
  ∀ key v ttl k, c.calls[i]? = some (.await (.cacheSet key v ttl) k) →
    Current pg c.shared.db key v ∨ Pending (Drops key) c

/-- Every entry is current, or going to be dropped. -/
structure Coherent (c : TaskPool) : Prop where
  entries : ∀ key v, c.shared.cache key = some v →
    Current pg c.shared.db key v ∨ Pending (Drops key) c
  plain : PlainIds c.shared.db
  orderly : Orderly (taskService pg) c

variable {pg}

/-- What a write does to an entry that was current: it still is, or the call that
    wrote is going to drop it. -/
theorem current_after_write {ω : Choice} {op : TaskOp} {k : op.Res → TaskProg TaskReply}
    {s : TaskState} {key : String} {v : CacheValue} (hinv : Consistent s.db s.cache)
    (hplain : PlainIds s.db) (howes : Duty s (.await op k)) (h : Current pg s.db key v) :
    Current pg (exec pg ω op s).1.db key v ∨
      WillIssue (Drops key) (k (exec pg ω op s).2) := by
  have heffect := exec_effect pg ω op s
  generalize (exec pg ω op s).1.db = db, (exec pg ω op s).2 = answer at heffect ⊢
  cases heffect with
  | same op notifications answer kept => exact Or.inl (h.of_same rfl rfl)
  | @insert n row wanted new keys named =>
      obtain ⟨hw, hp, -⟩ := foreignKeysHold_iff.mp keys
      obtain ⟨hpw, hpp⟩ := hplain.of_placed hw hp
      by_cases hkey : globMatch (getListCachePattern row.workspaceId row.projectId) key = true
      · exact Or.inr (howes row (by rw [wanted]; rfl) (by rw [wanted]; rfl) key hkey)
      · exact Or.inl (h.append hpw hpp hkey)
  | reinsert wanted gone keys =>
      -- the object that is saved is that of a row
      obtain ⟨-, ⟨r, hr, hre⟩, -⟩ := howes
      obtain ⟨hne, -, -⟩ := toRow_some wanted
      exact absurd (hre.id.trans hne.id.symm) (lookup_eq_none.mp gone r hr)
  | @update e saved old new wanted stored writes keys =>
      obtain ⟨-, hmem, hdrop⟩ := howes
      obtain ⟨hne, -, -⟩ := toRow_some wanted
      have hsame : SameIdentity (updateRow (s.now + ω.elapsed) old new) old :=
        (updateRow_identity _ old new).trans (same_of_toRow hinv.ids wanted stored hmem)
      obtain ⟨hw, hp, -⟩ := foreignKeysHold_iff.mp keys
      obtain ⟨hpw, hpp⟩ := hplain.of_placed hw hp
      by_cases hkey : Concerns e.row key
      · exact Or.inr (hdrop saved key hkey)
      · refine Or.inl (h.replace hinv.ids stored hsame hpw hpp ?_)
        rintro (hk | hk)
        · exact hkey (Or.inl (hk.trans (congrArg getTaskCacheKey hne.id)))
        · refine hkey (Or.inr ?_)
          rw [← hne.workspaceId, ← hne.projectId]
          exact hk
  | @softRemove t row stored =>
      obtain ⟨⟨r, hr, hre⟩, hdrop⟩ := howes
      obtain ⟨hmem, hid⟩ := lookup_mem stored
      have heq : r = row := hinv.ids.eq_of_key hr hmem (hre.id.trans hid.symm)
      subst heq
      obtain ⟨hw, hp⟩ := hinv.placed r hmem
      obtain ⟨hpw, hpp⟩ := hplain.of_placed hw hp
      by_cases hkey : Concerns t.row key
      · exact Or.inr (hdrop key hkey)
      · have hstored : lookup Task.id (markDeleted (s.now + ω.elapsed) r).id
            s.db.tasks = some r := hid ▸ stored
        refine Or.inl (h.replace hinv.ids hstored (markDeleted_identity _ r) hpw hpp ?_)
        rintro (hk | hk)
        · exact hkey (Or.inl (hk.trans (congrArg getTaskCacheKey hid)))
        · refine hkey (Or.inr ?_)
          rw [← hre.workspaceId, ← hre.projectId]
          exact hk

/-- One step: writers keep the invariant by themselves, a fill by `FillIsCurrent`. -/
theorem Coherent.step {c : TaskPool} (h : Coherent pg c) {i : Nat}
    (hfill : FillIsCurrent pg c i) (ω : Choice) :
    Coherent pg (step (exec pg) c i ω) := by
  have horderly := (h.orderly.step (i := i) (fun _ _ _ => trivial) ω).1
  rcases step_cases (exec pg) c i ω with h0 | ⟨op, k, hi, h0⟩
  · rw [h0]
    exact h
  · refine ⟨?_, by rw [h0]; exact h.plain.exec pg ω op, horderly⟩
    intro key v hv
    rw [h0] at hv
    have hdrop : ¬ Drops key op := by
      intro hd
      rw [exec_drops pg hd] at hv
      cases hv
    have hstay : Pending (Drops key) c →
        Pending (Drops key) (Interleaving.step (exec pg) c i ω) := by
      intro hp
      refine hp.step i ω ?_
      intro op' k' hi'
      rw [hi] at hi'
      cases hi'
      exact hdrop
    rcases exec_cache pg hv with hold | ⟨ttl, rfl⟩
    · rcases h.entries key v hold with hcur | hp
      · -- the entry was current: what did the operation do to the tasks?
        have howes := (h.orderly.follows _ (List.mem_of_getElem? hi)).owes h.orderly.inv
        have hwrite : Current pg (exec pg ω op c.shared).1.db key v ∨
            WillIssue (Drops key) (k (exec pg ω op c.shared).2) :=
          current_after_write h.orderly.inv h.plain howes hcur
        rcases hwrite with hcur' | hw
        · rw [h0]
          exact Or.inl hcur'
        · exact Or.inr ⟨_, List.mem_of_getElem? (step_calls_self (exec pg) hi ω), hw⟩
      · exact Or.inr (hstay hp)
    · rcases hfill key v ttl k hi with hcur | hp
      · rw [h0]
        exact Or.inl hcur
      · exact Or.inr (hstay hp)

/-! ## Keys of calls -/

/-- What calls that spell their ids as the columns do put entries under: the key of a task
    so spelled, or of a list query that the database ran. -/
structure SpelledKey (uuid : String → Option String) (key : String) : Prop where
  task : ∀ id, key = getTaskCacheKey id → uuid id = some id
  list : ∀ w p q, key = getListCacheKey w p q → ∃ w' p' q',
    key = getListCacheKey w' p' q' ∧ asked uuid w' p' q' = some (w', p', q')

/-- The keys that a call fills. -/
def FillKey (key : String) : TaskCall → Prop
  | .createTask _ _ _ _ => False
  | .getTasks w p q => key = getListCacheKey w p q
  | .findById id _ => key = getTaskCacheKey id
  | .updateTask id _ _ _ => key = getTaskCacheKey id
  | .deleteTask id _ _ => key = getTaskCacheKey id

/-- A fill, if it is one, is of such a key. -/
def Fills (P : String → Prop) : TaskOp → Prop
  | .cacheSet key _ _ => P key
  | _ => True

theorem fills_of_quiet {P : String → Prop} {α : Type} {p : TaskProg α}
    (h : OnlyIssues Quiet p) : OnlyIssues (Fills P) p := by
  refine h.mono ?_
  intro op hop
  cases op with
  | cacheSet key v ttl => exact absurd hop not_false
  | _ => trivial

theorem call_fills (c : TaskCall) : OnlyIssues (Fills fun key => FillKey key c) c.prog := by
  have hfind : ∀ id w, OnlyIssues (Fills fun key => key = getTaskCacheKey id)
      (findById id w) := by
    intro id w
    refine (findById_issues id w).mono ?_
    rintro op (_ | _ | _)
    · trivial
    · trivial
    · rfl
  cases c with
  | createTask w p u dto =>
      refine ⟨trivial, ?_⟩
      rintro (e | row)
      · trivial
      · exact ⟨trivial, fun _ => ⟨trivial, fun _ => ⟨trivial, fun _ => ⟨trivial, fun _ =>
          (fills_of_quiet (notifyAssignee_quiet dto)).bind fun _ => trivial⟩⟩⟩⟩
  | getTasks w p q =>
      refine ⟨trivial, ?_⟩
      rintro (_ | v)
      · exact ⟨trivial, fun _ => ⟨rfl, fun _ => trivial⟩⟩
      · trivial
  | findById id w => exact (hfind id w).bind fun _ => trivial
  | updateTask id w u dto =>
      refine (hfind id w).bind fun t => ?_
      unfold updateLoaded
      by_cases hversion : versionMismatch dto.version t.row.version = true
      · rw [if_pos hversion]
        trivial
      · rw [if_neg hversion]
        refine (fills_of_quiet (completionTime_quiet dto t)).bind fun completedAt => ?_
        refine ⟨trivial, ?_⟩
        rintro (e | saved)
        · trivial
        · exact fills_of_quiet (afterSave_quiet id w u dto t saved)
  | deleteTask id w u =>
      exact (hfind id w).bind fun t =>
        ⟨trivial, fun _ => ⟨trivial, fun _ => ⟨trivial, fun _ =>
        ⟨trivial, fun _ => ⟨trivial, fun _ => ⟨trivial, fun _ => ⟨trivial, fun _ =>
          trivial⟩⟩⟩⟩⟩⟩⟩

section Spelling

variable {uuid : String → Option String} {c : TaskCall}

theorem SpelledKey.of_task {id : String} (h : uuid id = some id) :
    SpelledKey uuid (getTaskCacheKey id) where
  task _ hkey := getTaskCacheKey_injective hkey ▸ h
  list w p q hkey := absurd hkey (taskKey_ne_listKey id w p q)

theorem SpelledKey.of_list {w p : String} {q : QueryTaskDto}
    (h : (TaskCall.getTasks w p q).Spelled uuid) (hq : q.runs = true) :
    SpelledKey uuid (getListCacheKey w p q) where
  task id hkey := absurd hkey.symm (taskKey_ne_listKey id w p q)
  list _ _ _ _ := ⟨w, p, q, rfl, asked_spelled h hq⟩

theorem byValue_fills (h : c.Spelled uuid) :
    OnlyIssues (Fills (SpelledKey uuid)) (c.byValue uuid) := by
  rcases TaskCall.byValue_cases h with ⟨hruns, hsame⟩ | ⟨w, p, q, rfl, -, hlist⟩
  · rw [hsame]
    refine (call_fills c).mono ?_
    intro op hop
    cases op with
    | cacheSet key v ttl =>
        cases c with
        | createTask w p u dto => exact hop.elim
        | getTasks w p q =>
            obtain rfl : key = getListCacheKey w p q := hop
            exact .of_list h (hruns q (List.mem_singleton.mpr rfl))
        | findById id w =>
            obtain rfl : key = getTaskCacheKey id := hop
            exact .of_task (h id (List.mem_cons_self ..))
        | updateTask id w u dto =>
            obtain rfl : key = getTaskCacheKey id := hop
            exact .of_task (h id (List.mem_cons_self ..))
        | deleteTask id w u =>
            obtain rfl : key = getTaskCacheKey id := hop
            exact .of_task (h id (List.mem_cons_self ..))
    | _ => trivial
  · rw [hlist]
    refine (listUnder_none _).mono ?_
    rintro op rfl
    trivial

theorem byValue_follows (h : c.Spelled uuid) (s : TaskState) :
    Follows (taskService pg) (c.byValue uuid) s := by
  rcases TaskCall.byValue_cases h with ⟨-, hsame⟩ | ⟨w, p, q, -, -, hlist⟩
  · rw [hsame]
    exact call_follows pg c s
  · rw [hlist]
    refine follows_of_quiet pg ((listUnder_none _).mono ?_) s
    rintro op rfl
    trivial

/-- The bargain about keys. -/
def spelledKeys (uuid : String → Option String) :
    Discipline (exec pg) HttpError TaskReply where
  inv s := ∀ key v, s.cache key = some v → SpelledKey uuid key
  rely _ _ := True
  refl _ := trivial
  trans _ _ _ _ _ := trivial
  granted _ _ := True
  owes
    | _, .await op _ => Fills (SpelledKey uuid) op
    | _, _ => True
  keep := by
    intro ω op k s hinv howes _
    refine ⟨?_, trivial⟩
    intro key v hv
    rcases exec_cache pg hv with hold | ⟨ttl, rfl⟩
    · exact hinv key v hold
    · exact howes

end Spelling

/-! ## At rest -/

/-- A task is created and then read. -/
def readAfterCreate : List TaskCall :=
  [.createTask "w" "p" "a" { title := "Plan" }, .findById "1" "w"]

/-- Nor does an update drop what was read under another spelling of the id. -/
example :
    let c := run (exec plainText)
      (poolByValue capitals ⟨{ office.db with tasks := [{ planTask with id := "t" }] },
          fun _ => none, 0⟩
        [.findById "T" "w", .updateTask "t" "w" "a" { title := .val "Renamed" }])
      (turns [0, 0, 0, 1, 1, 1, 1, 1, 1, 1, 1, 1])
    (∀ p ∈ c.calls, p.finished = true) ∧
      c.shared.db.tasks.map Task.title = ["Renamed"] ∧
      c.shared.cache (getTaskCacheKey "T")
        = some (.task (loadTask office.db { planTask with id := "t" })) := by decide

end Coherence

end PlatformTasks
