import TaskPlatform.IdSpelling
import TaskPlatform.ListCacheKeys
import TaskPlatform.Paging
import TaskPlatform.TaskRuns

/-! # The pages of a task list

    `getTasks` answers for one page at a time, from the cache or from the database.  As long
    as nobody writes tasks, its answers for the pages of one query are the pages of one
    sorted list, however the reads of these and other queries follow each other
    (`pages_partition`).

    `QueryTaskDto` takes any text as an assignee and any page number; Postgres does not.  A
    query that it refuses has no pages at all. -/

namespace PlatformTasks

open AsyncProgram PlatformEntities Paging

/-! ## Order -/

/-- What a collation is: a total preorder of texts. -/
structure OrdersTexts (pg : PostgresText) : Prop where
  total : ∀ x y, pg.collate x y = true ∨ pg.collate y x = true
  trans : ∀ x y z, pg.collate x y = true → pg.collate y z = true → pg.collate x z = true

/-- A comparison of rows that puts any two in an order. -/
structure Orders (le : Task → Task → Bool) : Prop where
  total : ∀ a b, le a b = true ∨ le b a = true
  trans : ∀ a b c, le a b = true → le b c = true → le a c = true

theorem Orders.flip {le : Task → Task → Bool} (h : Orders le) : Orders fun a b => le b a :=
  ⟨fun a b => h.total b a, fun a b c hab hbc => h.trans c b a hbc hab⟩

/-- With the primary key between equals it is still one. -/
theorem Orders.byId {le : Task → Task → Bool} (h : Orders le) :
    Orders fun a b => le a b && (!le b a || decide (a.id ≤ b.id)) := by
  have hkey : ∀ a b, (le a b && (!le b a || decide (a.id ≤ b.id))) = true ↔
      le a b = true ∧ (le b a = true → a.id ≤ b.id) := by
    intro a b
    rw [Bool.and_eq_true, Bool.or_eq_true, Bool.not_eq_true', decide_eq_true_eq]
    cases le b a with
    | true => simp
    | false => simp
  constructor
  · intro a b
    rw [hkey, hkey]
    rcases h.total a b with hab | hba
    · by_cases hba : le b a = true
      · rcases String.le_total a.id b.id with hid | hid
        · exact .inl ⟨hab, fun _ => hid⟩
        · exact .inr ⟨hba, fun _ => hid⟩
      · exact .inl ⟨hab, fun h => absurd h hba⟩
    · by_cases hab : le a b = true
      · rcases String.le_total a.id b.id with hid | hid
        · exact .inl ⟨hab, fun _ => hid⟩
        · exact .inr ⟨hba, fun _ => hid⟩
      · exact .inr ⟨hba, fun h => absurd h hab⟩
  · intro a b c hab hbc
    rw [hkey] at hab hbc ⊢
    refine ⟨h.trans a b c hab.1 hbc.1, ?_⟩
    -- where `a` and `c` are equals, `b` is one of them
    intro hca
    exact String.le_trans (hab.2 (h.trans b c a hbc.1 hca)) (hbc.2 (h.trans c a b hca hab.1))

theorem sortField_orders {pg : PostgresText} (hpg : OrdersTexts pg) (field : SortField) :
    Orders (field.le pg) := by
  cases field with
  | createdAt =>
      constructor
      · intro a b
        simp only [SortField.le, decide_eq_true_eq]
        exact Nat.le_total _ _
      · intro a b c
        simp only [SortField.le, decide_eq_true_eq]
        exact Nat.le_trans
  | title => exact ⟨fun a b => hpg.total _ _, fun a b c => hpg.trans _ _ _⟩
  | dueDate =>
      constructor
      · intro a b
        simp only [SortField.le]
        cases a.dueDate with
        | none => cases b.dueDate <;> simp
        | some x =>
            cases b.dueDate with
            | none => simp
            | some y =>
                simp only [decide_eq_true_eq]
                exact Nat.le_total x y
      · intro a b c
        simp only [SortField.le]
        cases c.dueDate with
        | none => simp
        | some z =>
            cases b.dueDate with
            | none => cases a.dueDate <;> simp
            | some y =>
                cases a.dueDate with
                | none => simp
                | some x =>
                    simp only [decide_eq_true_eq]
                    exact Nat.le_trans

theorem listLe_orders {pg : PostgresText} (hpg : OrdersTexts pg) (query : QueryTaskDto) :
    Orders (listLe pg query) := by
  unfold listLe
  cases query.sortOrder.getD .desc with
  | asc => exact (sortField_orders hpg _).byId
  | desc => exact (sortField_orders hpg _).flip.byId

/-! ## The list that is cut into pages -/

/-- The live tasks of the project that pass the filters. -/
def matchingTasks (pg : PostgresText) (db : Database) (workspaceId projectId : String)
    (query : QueryTaskDto) : List Task :=
  (db.tasks.filter (inProject workspaceId projectId)).filter (passesFilters pg query)

/-- They, in the order of the query. -/
def sortedTasks (pg : PostgresText) (db : Database) (workspaceId projectId : String)
    (query : QueryTaskDto) : List Task :=
  (matchingTasks pg db workspaceId projectId query).insertionSort
    fun a b => listLe pg query a b = true

theorem sortedTasks_perm (pg : PostgresText) (db : Database) (w p : String)
    (query : QueryTaskDto) : (sortedTasks pg db w p query).Perm (matchingTasks pg db w p query) :=
  List.perm_insertionSort _ _

theorem sortedTasks_pairwise {pg : PostgresText} (hpg : OrdersTexts pg) (db : Database)
    (w p : String) (query : QueryTaskDto) :
    (sortedTasks pg db w p query).Pairwise fun a b => listLe pg query a b = true := by
  have horders := listLe_orders hpg query
  have htotal : Std.Total fun a b => listLe pg query a b = true := ⟨horders.total⟩
  have htrans : IsTrans Task fun a b => listLe pg query a b = true := ⟨horders.trans⟩
  exact List.pairwise_insertionSort _ _

/-- The query for page `n`. -/
def atPage (query : QueryTaskDto) (n : Nat) : QueryTaskDto := { query with page := some n }

theorem orDefault_some {n : Nat} (h : 0 < n) (d : Nat) : orDefault (some n) d = n := by
  cases n with
  | zero => exact absurd h (Nat.lt_irrefl 0)
  | succ n => rfl

section Answers

variable (pg : PostgresText) (db : Database) (w p : String) {query : QueryTaskDto}
  {limit : Nat} (hlimit : query.limit = some limit) (hpos : 0 < limit)

include hlimit hpos

theorem listTasks_items {n : Nat} (hn : 1 ≤ n) :
    (listTasks pg db w p (atPage query n)).items.map ListedTask.row
      = pageAt limit (sortedTasks pg db w p query) n := by
  show ((((sortedTasks pg db w p query).drop ((orDefault (some n) 1 - 1)
    * orDefault query.limit 10)).take (orDefault query.limit 10)).map _).map _ = _
  rw [hlimit, orDefault_some hpos, orDefault_some hn, List.map_map]
  exact List.map_id _

theorem listTasks_totalPages (n : Nat) :
    (listTasks pg db w p (atPage query n)).totalPages
      = pageCount limit (sortedTasks pg db w p query).length := by
  rw [(sortedTasks_perm pg db w p query).length_eq]
  show ((matchingTasks pg db w p query).length + orDefault query.limit 10 - 1)
    / orDefault query.limit 10 = _
  rw [hlimit, orDefault_some hpos]
  rfl

end Answers

/-! ## What is asked -/

/-- `Number.MAX_SAFE_INTEGER`: offsets up to here are what the code computes. -/
def maxSafeInteger : Nat := 9007199254740991

/-- The pages of a query are read alike. -/
theorem readBy_atPage {read : String → Option String} {query query' : QueryTaskDto}
    (h : (atPage query 1).readBy read = some query') (n : Nat) :
    (atPage query n).readBy read = some (atPage query' n) ∧ query'.limit = query.limit := by
  unfold QueryTaskDto.readBy at h ⊢
  have hassignee : (atPage query n).assignedTo = (atPage query 1).assignedTo := rfl
  rw [hassignee]
  cases htruthy : truthy (atPage query 1).assignedTo with
  | none =>
      rw [htruthy] at h
      cases h
      exact ⟨rfl, rfl⟩
  | some x =>
      rw [htruthy] at h
      cases hread : read x with
      | none =>
          simp only [hread] at h
          cases h
      | some y =>
          simp only [hread] at h
          cases h
          dsimp only
          rw [hread]
          exact ⟨rfl, rfl⟩

/-- What runs for the first page runs for the others, as far as offsets go. -/
theorem runs_atPage {query : QueryTaskDto} {limit n : Nat} (hlimit : query.limit = some limit)
    (hpos : 0 < limit) (h : (atPage query 1).runs = true) (hn : 1 ≤ n)
    (hoffset : (n - 1) * limit ≤ maxBigint) : (atPage query n).runs = true := by
  unfold QueryTaskDto.runs at h ⊢
  rw [Bool.and_eq_true, decide_eq_true_eq] at h ⊢
  refine ⟨h.1, ?_⟩
  show (orDefault (some n) 1 - 1) * orDefault query.limit 10 ≤ maxBigint
  rw [hlimit, orDefault_some hpos, orDefault_some hn]
  exact hoffset

/-- The parts of what is asked. -/
theorem asked_eq_some {uuid : String → Option String} {w p w' p' : String}
    {query query' : QueryTaskDto} :
    asked uuid w p query = some (w', p', query') ↔
      query.runs = true ∧ uuid w = some w' ∧ uuid p = some p' ∧
        query.readBy uuid = some query' := by
  show (if (!query.runs) = true then none else (uuid w).bind fun x => (uuid p).bind fun y =>
    (query.readBy uuid).bind fun q => some (x, y, q)) = _ ↔ _
  cases hruns : query.runs with
  | false => simp
  | true =>
      simp only [Bool.not_true, Bool.false_eq_true, if_false, Option.bind_eq_some_iff,
        Option.some.injEq, Prod.mk.injEq, true_and]
      constructor
      · rintro ⟨x, hx, y, hy, q, hq, rfl, rfl, rfl⟩
        exact ⟨hx, hy, hq⟩
      · rintro ⟨hx, hy, hq⟩
        exact ⟨_, hx, _, hy, _, hq, rfl, rfl, rfl⟩

/-- What is asked for one page is asked for the others. -/
theorem asked_atPage {uuid : String → Option String} {w p w' p' : String}
    {query query' : QueryTaskDto} {limit n : Nat} (hlimit : query.limit = some limit)
    (hpos : 0 < limit) (h : asked uuid w p (atPage query 1) = some (w', p', query'))
    (hn : 1 ≤ n) (hoffset : (n - 1) * limit ≤ maxSafeInteger) :
    asked uuid w p (atPage query n) = some (w', p', atPage query' n) := by
  obtain ⟨hruns, hw, hp, hread⟩ := asked_eq_some.mp h
  have hbigint : (n - 1) * limit ≤ maxBigint := Nat.le_trans hoffset (by decide)
  exact asked_eq_some.mpr
    ⟨runs_atPage hlimit hpos hruns hn hbigint, hw, hp, (readBy_atPage hread n).1⟩

/-! ## Reads -/

/-- A call of `getTasks`, and what the outside world decides during it. -/
structure ListRead where
  workspaceId : String
  projectId : String
  query : QueryTaskDto
  choices : Nat → Choice

/-- The calls one after the other, and what they come back with. -/
def readAll (pg : PostgresText) (uuid : String → Option String) :
    List ListRead → TaskState → TaskState × List (Except HttpError TaskReply)
  | [], s => (s, [])
  | r :: rest, s =>
      let (s', out) := solo (exec pg) r.choices
        ((TaskCall.getTasks r.workspaceId r.projectId r.query).byValue uuid) s
      let (s'', outs) := readAll pg uuid rest s'
      (s'', out :: outs)

/-- What the database answers to a query, which may be that it refuses it. -/
def answer (pg : PostgresText) (db : Database) :
    Option (String × String × QueryTaskDto) → Except HttpError TaskReply
  | none => .error .queryFailed
  | some (w, p, query) => .ok (.listed (.tasks (listTasks pg db w p query)))

/-- Distinct queries have distinct keys. -/
def KeysDistinct (Q : String → String → QueryTaskDto → Prop) : Prop :=
  ∀ w p q w' p' q', Q w p q → Q w' p' q' →
    getListCacheKey w p q = getListCacheKey w' p' q' → w = w' ∧ p = p' ∧ q = q'

/-- What is cached for a query is what the database answers. -/
def CoherentFor (pg : PostgresText) (uuid : String → Option String)
    (Q : String → String → QueryTaskDto → Prop) (db : Database) (s : TaskState) : Prop :=
  s.db = db ∧ ∀ w p q, Q w p q → ∀ v, s.cache (getListCacheKey w p q) = some v →
    answer pg db (asked uuid w p q) = .ok (.listed v)

section Reads

variable {pg : PostgresText} {uuid : String → Option String}
  {Q : String → String → QueryTaskDto → Prop} {db : Database}

theorem CoherentFor.wait {s : TaskState} (h : CoherentFor pg uuid Q db s) (ω : Choice) :
    CoherentFor pg uuid Q db (s.wait ω) :=
  ⟨h.1, fun w p q hq v hv => h.2 w p q hq v (wait_cache hv)⟩

/-- One read: the answer of the database, and a cache as coherent as before. -/
theorem getTasks_ensures (hkeys : KeysDistinct Q) {s : TaskState}
    (h : CoherentFor pg uuid Q db s) {w p : String} {q : QueryTaskDto} (hq : Q w p q) :
    Ensures (exec pg) (fun out s' => CoherentFor pg uuid Q db s' ∧
        out = answer pg db (asked uuid w p q))
      ((TaskCall.getTasks w p q).byValue uuid) s := by
  rw [getTasks_byValue]
  intro ω₁
  have h₁ := h.wait ω₁
  cases hcached : (s.wait ω₁).cache (getListCacheKey w p q) with
  | some v =>
      have hanswer : (exec pg ω₁ (.cacheGet (getListCacheKey w p q)) s).2 = some v := hcached
      rw [hanswer]
      exact ⟨h₁, (h₁.2 w p q hq v hcached).symm⟩
  | none =>
      have hanswer : (exec pg ω₁ (.cacheGet (getListCacheKey w p q)) s).2 = none := hcached
      rw [hanswer]
      cases hasked : asked uuid w p q with
      | none => exact ⟨h₁, rfl⟩
      | some read =>
          obtain ⟨w₀, p₀, q₀⟩ := read
          intro ω₂
          have h₂ := h₁.wait ω₂
          have hdb : (exec pg ω₂ (.getManyAndCount w₀ p₀ q₀)
              (exec pg ω₁ (.cacheGet (getListCacheKey w p q)) s).1).2
                = listTasks pg db w₀ p₀ q₀ := by
            rw [← h₁.1]
            rfl
          rw [hdb]
          intro ω₃
          refine ⟨⟨h₂.1, ?_⟩, rfl⟩
          intro w' p' q' hq' v hv
          rcases exec_cache pg hv with hold | ⟨ttl, hset⟩
          · exact h₂.2 w' p' q' hq' v hold
          · -- the entry just written is that of the query itself
            injection hset with hkey hvalue
            obtain ⟨rfl, rfl, rfl⟩ := hkeys w p q w' p' q' hq hq' hkey
            rw [hasked, ← hvalue]
            rfl

/-- A sequence of reads. -/
theorem readAll_answers (hkeys : KeysDistinct Q) (reads : List ListRead) {s : TaskState}
    (h : CoherentFor pg uuid Q db s)
    (hreads : ∀ r ∈ reads, Q r.workspaceId r.projectId r.query) :
    CoherentFor pg uuid Q db (readAll pg uuid reads s).1 ∧
      (readAll pg uuid reads s).2 = reads.map fun r =>
        answer pg db (asked uuid r.workspaceId r.projectId r.query) := by
  induction reads generalizing s with
  | nil => exact ⟨h, rfl⟩
  | cons r rest ih =>
      have hchoice : Nonempty Choice := ⟨{}⟩
      obtain ⟨hnext, hout⟩ := (ensures_iff _ _ _).mp
        (getTasks_ensures hkeys h (hreads r (List.mem_cons_self ..))) r.choices
      obtain ⟨hend, houts⟩ := ih hnext fun r' hr' => hreads r' (List.mem_cons_of_mem _ hr')
      refine ⟨hend, ?_⟩
      rw [List.map_cons, ← hout, ← houts]
      rfl

end Reads

/-! ## Pages -/

/-- What pages of one query should be: cut out of one sorted list of all that matches. -/
structure Partition (le : Task → Task → Bool) (matching : List Task) (limit : Nat)
    (pages : Nat → TaskPage) : Prop where
  total : ∀ n, (pages n).total = matching.length
  totalPages : ∀ n, (pages n).totalPages = (pages 1).totalPages
  /-- Every matching task once, in order. -/
  once : (((List.range (pages 1).totalPages).flatMap fun i =>
    (pages (i + 1)).items).map ListedTask.row).Perm matching
  sorted : (((List.range (pages 1).totalPages).flatMap fun i =>
    (pages (i + 1)).items).map ListedTask.row).Pairwise fun a b => le a b = true
  full : ∀ n, 1 ≤ n → n < (pages 1).totalPages → (pages n).items.length = limit
  beyond : ∀ n, (pages 1).totalPages < n → (pages n).items = []

/-- The pages that the database answers with. -/
theorem listTasks_partition {pg : PostgresText} (hpg : OrdersTexts pg) (db : Database)
    (w p : String) {query : QueryTaskDto} {limit : Nat} (hlimit : query.limit = some limit)
    (hpos : 0 < limit) :
    Partition (listLe pg query) (matchingTasks pg db w p query) limit
      fun n => listTasks pg db w p (atPage query n) := by
  have hcount := listTasks_totalPages pg db w p hlimit hpos
  have hall : ((List.range (listTasks pg db w p (atPage query 1)).totalPages).flatMap fun i =>
      (listTasks pg db w p (atPage query (i + 1))).items).map ListedTask.row
        = sortedTasks pg db w p query := by
    rw [hcount, List.map_flatMap]
    simp only [listTasks_items pg db w p hlimit hpos (Nat.succ_pos _)]
    exact flatMap_pageAt hpos _
  constructor
  · exact fun n => rfl
  · intro n
    show _ = (listTasks pg db w p (atPage query 1)).totalPages
    rw [hcount, hcount]
  · rw [hall]
    exact sortedTasks_perm pg db w p query
  · rw [hall]
    exact sortedTasks_pairwise hpg db w p query
  · intro n hn hlt
    rw [hcount] at hlt
    have hitems := congrArg List.length (listTasks_items pg db w p hlimit hpos hn)
    rw [List.length_map, length_pageAt hn hlt] at hitems
    exact hitems
  · intro n hlt
    rw [hcount] at hlt
    have hn : 1 ≤ n := Nat.one_le_of_lt hlt
    have hitems := listTasks_items pg db w p hlimit hpos hn
    rw [pageAt_eq_nil hpos hlt] at hitems
    exact List.map_eq_nil_iff.mp hitems

/-- **Pages partition the result.**  For every database, workspace, project and query with
    a page size that Postgres runs, in whatever order the pages are read, also between other
    list queries with distinct keys and from a cache that is empty or coherent: what the
    reads come back with are the pages of one sorted list of the matching live tasks.  A
    query that Postgres refuses throws, and changes nothing for the others. -/
theorem pages_partition {pg : PostgresText} (hpg : OrdersTexts pg)
    {uuid : String → Option String} {Q : String → String → QueryTaskDto → Prop}
    (hkeys : KeysDistinct Q) {db : Database} {s : TaskState}
    (hcache : CoherentFor pg uuid Q db s) {w p w' p' : String} {query query' : QueryTaskDto}
    {limit : Nat} (hlimit : query.limit = some limit) (hpos : 1 ≤ limit)
    (hasked : asked uuid w p (atPage query 1) = some (w', p', query')) :
    ∃ pages : Nat → TaskPage,
      Partition (listLe pg query') (matchingTasks pg db w' p' query') limit pages ∧
        ∀ reads : List ListRead, (∀ r ∈ reads, Q r.workspaceId r.projectId r.query) →
          ∀ (i : Nat) (r : ListRead), reads[i]? = some r →
            (∀ n, 1 ≤ n → (n - 1) * limit ≤ maxSafeInteger → r.workspaceId = w →
              r.projectId = p → r.query = atPage query n →
                (readAll pg uuid reads s).2[i]? = some (.ok (.listed (.tasks (pages n))))) ∧
            (asked uuid r.workspaceId r.projectId r.query = none →
              (readAll pg uuid reads s).2[i]? = some (.error .queryFailed)) := by
  have hlimit' : query'.limit = some limit :=
    ((readBy_atPage (asked_eq_some.mp hasked).2.2.2 1).2).trans hlimit
  refine ⟨_, listTasks_partition hpg db w' p' hlimit' hpos, ?_⟩
  intro reads hreads i r hr
  have hout : (readAll pg uuid reads s).2[i]?
      = some (answer pg db (asked uuid r.workspaceId r.projectId r.query)) := by
    rw [(readAll_answers hkeys reads hcache hreads).2, List.getElem?_map, hr]
    rfl
  constructor
  · rintro n hn hoffset rfl rfl hquery
    rw [hout, hquery, asked_atPage hlimit hpos hasked hn hoffset]
    rfl
  · intro hrefused
    rw [hout, hrefused]
    rfl

/-- The pages of an accepted query have distinct keys. -/
theorem keysDistinct_pages (w p : String) {query : QueryTaskDto} (hquery : Accepted query) :
    KeysDistinct fun w' p' q => w' = w ∧ p' = p ∧ ∃ n, 1 ≤ n ∧ q = atPage query n := by
  rintro _ _ _ _ _ _ ⟨rfl, rfl, n, hn, rfl⟩ ⟨rfl, rfl, m, hm, rfl⟩ hkey
  have haccepted : ∀ k, 1 ≤ k → Accepted (atPage query k) := fun k hk =>
    ⟨⟨k, rfl, hk⟩, hquery.limit, hquery.sortBy, hquery.sortOrder⟩
  have hpage := ((listKey_eq_iff (haccepted n hn) (haccepted m hm)).mp hkey).1
  refine ⟨rfl, rfl, ?_⟩
  rw [Option.some.inj hpage]

theorem plainText_orders : OrdersTexts plainText := by
  constructor
  · intro x y
    simp only [plainText, decide_eq_true_eq]
    exact String.le_total x y
  · intro x y z
    simp only [plainText, decide_eq_true_eq]
    exact String.le_trans

/-- An empty cache is coherent. -/
theorem coherentFor_empty (pg : PostgresText) (uuid : String → Option String)
    (Q : String → String → QueryTaskDto → Prop) (db : Database) (now : Nat) :
    CoherentFor pg uuid Q db ⟨db, fun _ => none, now⟩ := by
  refine ⟨rfl, ?_⟩
  intro w p q _ v hv
  cases hv

/-- Three tasks, two on a page. -/
def threePlans : Database :=
  { office.db with
    tasks := [planTask, { planTask with id := "2" }, { planTask with id := "3" }] }

/-- Every task, two to a page. -/
def twoAPage : QueryTaskDto := { allTasks with limit := some 2 }

theorem twoAPage_accepted : Accepted twoAPage :=
  ⟨⟨1, rfl, by decide⟩, ⟨2, rfl, by decide, by decide⟩, rfl, rfl⟩

theorem pages_partition_threePlans :
    ∃ pages : Nat → TaskPage,
      Partition (listLe plainText twoAPage)
          (matchingTasks plainText threePlans "w" "p" twoAPage) 2 pages ∧
        ∀ reads : List ListRead,
          (∀ r ∈ reads, r.workspaceId = "w" ∧ r.projectId = "p" ∧
            ∃ n, 1 ≤ n ∧ r.query = atPage twoAPage n) →
          ∀ (i : Nat) (r : ListRead), reads[i]? = some r →
            (∀ n, 1 ≤ n → (n - 1) * 2 ≤ maxSafeInteger → r.workspaceId = "w" →
              r.projectId = "p" → r.query = atPage twoAPage n →
                (readAll plainText capitals reads ⟨threePlans, fun _ => none, 0⟩).2[i]?
                  = some (.ok (.listed (.tasks (pages n))))) ∧
            (asked capitals r.workspaceId r.projectId r.query = none →
              (readAll plainText capitals reads ⟨threePlans, fun _ => none, 0⟩).2[i]?
                = some (.error .queryFailed)) :=
  pages_partition plainText_orders (keysDistinct_pages "w" "p" twoAPage_accepted)
    (coherentFor_empty plainText capitals _ threePlans 0) rfl (by decide : 1 ≤ 2) rfl

/-- An assignee that is no uuid, and a page whose offset is no `bigint`: neither list
    exists. -/
theorem refused_lists :
    (readAll plainText capitals
        [⟨"w", "p", { twoAPage with assignedTo := some "bob" }, fun _ => {}⟩,
          ⟨"w", "p", atPage { allTasks with limit := some 100 } (10 ^ 17), fun _ => {}⟩]
        ⟨threePlans, fun _ => none, 0⟩).2
      = [.error .queryFailed, .error .queryFailed] := by
  rfl

example : (listTasks plainText threePlans "w" "p" (atPage twoAPage 2)).items.map
    (fun item => item.row.id) = ["3"] := by decide

end PlatformTasks
