import Mathlib.Algebra.Order.Field.Rat
import Mathlib.Tactic.Linarith
import Mathlib.Tactic.NormNum
import Mathlib.Tactic.Positivity
import TaskPlatform.GroupedQuery
import TaskPlatform.WorkspaceService

/-! # The figures of the dashboard

    `getSummary` of `src/modules/workspace/dashboard.controller.ts`: six queries, each with
    its own `NOW()`, and what is computed from their rows.  The columns are taken as the
    tables have them, so statuses and priorities are any texts.

    The rate is the quotient before `toFixed`; rounding to two digits is left out. -/

namespace PlatformApi

open PlatformEntities GroupedQuery

/-! ## Tables -/

/-- The columns of a task that the queries read. -/
structure TaskColumns where
  workspaceId : String
  status : String
  priority : String
  assignedTo : Option String
  dueDate : Option Int
  deletedAt : Option Int
  deriving DecidableEq, Repr

/-- The columns of a task that the queries read. -/
def taskColumns (t : Task) : TaskColumns :=
  ⟨t.workspaceId, t.status.text, t.priority.text, t.assignedTo, t.dueDate.map Int.ofNat,
    t.deletedAt.map Int.ofNat⟩

/-- The tables that the queries read. -/
structure DashboardTables where
  projects : List Project
  tasks : List TaskColumns
  users : List User

/-- The tables of a database. -/
def dashboardTables (db : Database) : DashboardTables :=
  ⟨db.projects, db.tasks.map taskColumns, db.users⟩

/-- What the schema sees to: ids of users are unique, and an assignee is a user. -/
structure TablesKept (tables : DashboardTables) : Prop where
  users : RowTable.Unique User.id tables.users
  assignee : ∀ t ∈ tables.tasks, ∀ a, t.assignedTo = some a →
    ∃ u ∈ tables.users, u.id = a

/-- What is up to Postgres: the order in which groups come back, and seven days from a
    moment, which depends on the time zone of the session. -/
structure DashboardSession where
  arrange : {κ : Type} → List (GroupCount κ) → List (GroupCount κ)
  perm : ∀ {κ : Type} (l : List (GroupCount κ)), (arrange l).Perm l
  inSevenDays : Int → Int

/-! ## Queries -/

/-- `WHERE "workspaceId" = $1 AND "deletedAt" IS NULL`. -/
def isLive (workspaceId : String) (t : TaskColumns) : Bool :=
  t.workspaceId = workspaceId && t.deletedAt.isNone

/-- `"dueDate" < NOW() AND status != 'DONE'`; a null date passes no comparison. -/
def isOverdue (now : Int) (t : TaskColumns) : Bool :=
  t.dueDate.any (fun due => due < now) && t.status ≠ "DONE"

/-- `"dueDate" BETWEEN NOW() AND NOW() + INTERVAL '7 days' AND status != 'DONE'`. -/
def isUpcoming (session : DashboardSession) (now : Int) (t : TaskColumns) : Bool :=
  t.dueDate.any (fun due => now ≤ due && due ≤ session.inSevenDays now) && t.status ≠ "DONE"

/-- `::int`. -/
def castInt (n : Nat) : Except HttpError Nat :=
  if n ≤ 2147483647 then .ok n else .error .queryFailed

/-- The counts of the groups as `int`. -/
def castCounts {κ : Type} (groups : List (GroupCount κ)) :
    Except HttpError (List (GroupCount κ)) :=
  groups.mapM fun g => do
    let count ← castInt g.count
    .ok ⟨g.key, count⟩

/-- What the productivity query groups by. -/
structure MemberKey where
  userId : String
  name : String
  avatar : Option String
  deriving DecidableEq, Repr

/-- What the rows of a member are grouped by. -/
def memberKeyOf (u : User) : MemberKey := ⟨u.id, u.name, u.avatar⟩

/-- `tasks t INNER JOIN users u ON t."assignedTo" = u.id`, with the conditions on `t`. -/
def completedByMember (tables : DashboardTables) (workspaceId : String) :
    List (TaskColumns × User) :=
  innerJoin (fun t u => t.assignedTo = some u.id)
    (tables.tasks.filter fun t => isLive workspaceId t && t.status = "DONE") tables.users

/-- `DashboardSummary`. -/
structure DashboardSummary where
  totalTasks : Nat
  completedTasks : Nat
  overdueTasks : Nat
  upcomingTasks : Nat
  totalProjects : Nat
  completionRate : Option Rat
  statusDistribution : List (GroupCount String)
  priorityDistribution : List (GroupCount String)
  memberProductivity : List (GroupCount MemberKey)
  deriving DecidableEq, Repr

/-- A quotient of numbers; there is none by zero. -/
def quotient (a b : Nat) : Option Rat := if b = 0 then none else some (a / b)

/-- `completionRate` before it is rounded. -/
def completionRate (completedTasks totalTasks : Nat) : Option Rat :=
  if totalTasks > 0 then (quotient completedTasks totalTasks).map (· * 100) else some 0

/-- The loop over the status distribution: the total, and the count of the group `DONE`. -/
def countStatuses (groups : List (GroupCount String)) : Nat × Nat :=
  groups.foldl (fun found item =>
    (found.1 + item.count, if item.key = "DONE" then item.count else found.2)) (0, 0)

/-- `getSummary`; `now n` is the time that query `n` sees. -/
def getSummary (session : DashboardSession) (tables : DashboardTables) (now : Nat → Int)
    (workspaceId : String) : Except HttpError DashboardSummary := do
  let live := tables.tasks.filter (isLive workspaceId)
  let totalProjects ← castInt
    (tables.projects.filter fun p => p.workspaceId = workspaceId).length
  let statusDistribution ← castCounts
    (session.arrange (groupCounts TaskColumns.status live))
  let overdueTasks ← castInt (live.filter (isOverdue (now 3))).length
  let upcomingTasks ← castInt (live.filter (isUpcoming session (now 4))).length
  let priorityDistribution ← castCounts
    (session.arrange (groupCounts TaskColumns.priority live))
  let memberProductivity ← castCounts
    ((session.arrange (groupCounts (fun row => memberKeyOf row.2)
      (completedByMember tables workspaceId))).insertionSort fun a b => b.count ≤ a.count)
  let (totalTasks, completedTasks) := countStatuses statusDistribution
  .ok
    { totalTasks := totalTasks
      completedTasks := completedTasks
      overdueTasks := overdueTasks
      upcomingTasks := upcomingTasks
      totalProjects := totalProjects
      completionRate := completionRate completedTasks totalTasks
      statusDistribution := statusDistribution
      priorityDistribution := priorityDistribution
      memberProductivity := memberProductivity }

/-! ## What the queries come back with -/

theorem ok_of_bind {α β : Type} {x : Except HttpError α}
    {f : α → Except HttpError β} {b : β}
    (h : x >>= f = .ok b) : ∃ a, x = .ok a ∧ f a = .ok b := by
  cases x with
  | error e => cases h
  | ok a => exact ⟨a, rfl, h⟩

theorem castInt_ok {n m : Nat} (h : castInt n = .ok m) : m = n := by
  unfold castInt at h
  by_cases hn : n ≤ 2147483647
  · rw [if_pos hn] at h
    exact (Except.ok.inj h).symm
  · rw [if_neg hn] at h
    cases h

theorem castCounts_ok {κ : Type} {groups result : List (GroupCount κ)}
    (h : castCounts groups = .ok result) : result = groups := by
  induction groups generalizing result with
  | nil => exact (Except.ok.inj h).symm
  | cons g rest ih =>
      rw [castCounts, List.mapM_cons] at h
      obtain ⟨g', hg', h⟩ := ok_of_bind h
      obtain ⟨count, hcount, hg'⟩ := ok_of_bind hg'
      obtain ⟨rest', hrest, h⟩ := ok_of_bind h
      rw [← Except.ok.inj h, ih hrest, ← Except.ok.inj hg', castInt_ok hcount]

theorem countStatuses_eq (groups : List (GroupCount String)) :
    countStatuses groups = ((groups.map GroupCount.count).sum, pick "DONE" groups) := by
  have hfold : ∀ (total done : Nat), groups.foldl (fun found item =>
      (found.1 + item.count, if item.key = "DONE" then item.count else found.2)) (total, done)
        = (total + (groups.map GroupCount.count).sum, groups.foldl (fun found g =>
          if g.key = "DONE" then g.count else found) done) := by
    induction groups with
    | nil => exact fun _ _ => rfl
    | cons g rest ih =>
        intro total done
        rw [List.foldl_cons, List.foldl_cons, ih, List.map_cons, List.sum_cons, Nat.add_assoc]
  rw [countStatuses, hfold, Nat.zero_add]
  rfl

/-- A summary that comes back at all has these figures. -/
theorem getSummary_ok {session : DashboardSession} {tables : DashboardTables} {now : Nat → Int}
    {w : String} {summary : DashboardSummary} (h : getSummary session tables now w = .ok summary) :
    summary.statusDistribution = session.arrange (groupCounts TaskColumns.status
        (tables.tasks.filter (isLive w))) ∧
      summary.priorityDistribution = session.arrange (groupCounts TaskColumns.priority
        (tables.tasks.filter (isLive w))) ∧
      summary.memberProductivity = (session.arrange (groupCounts
        (fun row => memberKeyOf row.2) (completedByMember tables w))).insertionSort
          (fun a b => b.count ≤ a.count) ∧
      summary.overdueTasks = ((tables.tasks.filter (isLive w)).filter
        (isOverdue (now 3))).length ∧
      summary.upcomingTasks = ((tables.tasks.filter (isLive w)).filter
        (isUpcoming session (now 4))).length ∧
      summary.totalTasks = (summary.statusDistribution.map GroupCount.count).sum ∧
      summary.completedTasks = pick "DONE" summary.statusDistribution ∧
      summary.completionRate = completionRate summary.completedTasks summary.totalTasks := by
  unfold getSummary at h
  obtain ⟨projects, -, h⟩ := ok_of_bind h
  obtain ⟨status, hstatus, h⟩ := ok_of_bind h
  obtain ⟨overdue, hoverdue, h⟩ := ok_of_bind h
  obtain ⟨upcoming, hupcoming, h⟩ := ok_of_bind h
  obtain ⟨priority, hpriority, h⟩ := ok_of_bind h
  obtain ⟨productivity, hproductivity, h⟩ := ok_of_bind h
  have hcounts := countStatuses_eq status
  generalize countStatuses status = counts at h hcounts
  obtain rfl := hcounts
  obtain rfl := (Except.ok.inj h).symm
  exact ⟨castCounts_ok hstatus, castCounts_ok hpriority, castCounts_ok hproductivity,
    castInt_ok hoverdue, castInt_ok hupcoming, rfl, rfl, rfl⟩

theorem castInt_of_le {n : Nat} (h : n ≤ 2147483647) : castInt n = .ok n := if_pos h

theorem castCounts_of_le {κ : Type} {groups : List (GroupCount κ)}
    (h : ∀ g ∈ groups, g.count ≤ 2147483647) : castCounts groups = .ok groups := by
  induction groups with
  | nil => rfl
  | cons g rest ih =>
      have hrest := ih fun g' hg' => h g' (List.mem_cons_of_mem _ hg')
      rw [castCounts] at hrest ⊢
      rw [List.mapM_cons, castInt_of_le (h g (List.mem_cons_self ..)), hrest]
      rfl

/-! ## Consistency -/

/-- A due date before one moment is not in the week after a later one. -/
theorem not_overdue_and_upcoming (session : DashboardSession) {now now' : Int} (h : now ≤ now')
    (t : TaskColumns) : (isOverdue now t && isUpcoming session now' t) = false := by
  unfold isOverdue isUpcoming
  cases t.dueDate with
  | none => rfl
  | some due =>
      by_cases hdue : due < now
      · have hlate : ¬ now' ≤ due := by omega
        simp [hlate]
      · simp [hdue]

/-- Overdue, upcoming and completed tasks are different ones. -/
theorem at_most_one_figure (session : DashboardSession) {now now' : Int} (h : now ≤ now')
    (t : TaskColumns) :
    (isOverdue now t).toNat + (isUpcoming session now' t).toNat
      + (decide (t.status = "DONE")).toNat ≤ 1 := by
  by_cases hdone : t.status = "DONE"
  · have hoverdue : isOverdue now t = false := by simp [isOverdue, hdone]
    have hupcoming : isUpcoming session now' t = false := by simp [isUpcoming, hdone]
    rw [hoverdue, hupcoming, decide_eq_true hdone]
    decide
  · have hapart := not_overdue_and_upcoming session h t
    rw [decide_eq_false hdone]
    cases hoverdue : isOverdue now t with
    | false => cases isUpcoming session now' t <;> decide
    | true =>
        rw [hoverdue, Bool.true_and] at hapart
        rw [hapart]
        decide

/-- One row of the join for every completed task with an assignee. -/
theorem length_completedByMember {tables : DashboardTables} (hkept : TablesKept tables)
    (w : String) :
    (completedByMember tables w).length
      = ((tables.tasks.filter fun t => isLive w t && t.status = "DONE").filter fun t =>
        t.assignedTo.isSome).length := by
  refine length_innerJoin ?_
  intro t ht
  cases hassigned : t.assignedTo with
  | none => simp
  | some a =>
      obtain ⟨u, hu, hid⟩ := hkept.assignee t (List.mem_filter.mp ht).1 a hassigned
      have hone := List.count_eq_one_of_mem hkept.users (List.mem_map_of_mem hu)
      rw [count_key_eq, hid] at hone
      rw [Option.isSome_some, if_pos rfl, ← hone]
      congr 1
      refine List.filter_congr ?_
      intro u' _
      simp [eq_comm]

theorem completionRate_bounds {completed total : Nat} (h : completed ≤ total) :
    ∃ rate, completionRate completed total = some rate ∧ 0 ≤ rate ∧ rate ≤ 100 := by
  unfold completionRate quotient
  by_cases htotal : total > 0
  · rw [if_pos htotal, if_neg (Nat.ne_of_gt htotal)]
    have hpos : (0 : Rat) < total := by exact_mod_cast htotal
    have hle : (completed : Rat) ≤ total := by exact_mod_cast h
    refine ⟨completed / total * 100, rfl, by positivity, ?_⟩
    have hquotient : (completed : Rat) / total ≤ 1 := (div_le_one hpos).mpr hle
    linarith
  · rw [if_neg htotal]
    exact ⟨0, rfl, le_refl 0, by norm_num⟩

/-- What the figures have to do with the tables and with each other. -/
structure FiguresConsistent (session : DashboardSession) (tables : DashboardTables)
    (now : Nat → Int) (w : String) (summary : DashboardSummary) : Prop where
  statuses : (summary.statusDistribution.map GroupCount.count).sum
    = (tables.tasks.filter (isLive w)).length
  priorities : (summary.priorityDistribution.map GroupCount.count).sum
    = (tables.tasks.filter (isLive w)).length
  total : summary.totalTasks = (tables.tasks.filter (isLive w)).length
  completed : summary.completedTasks
    = ((tables.tasks.filter (isLive w)).filter fun t => t.status = "DONE").length
  productivity : (summary.memberProductivity.map GroupCount.count).sum
    = ((tables.tasks.filter fun t => isLive w t && t.status = "DONE").filter fun t =>
      t.assignedTo.isSome).length
  overdue : summary.overdueTasks
    = ((tables.tasks.filter (isLive w)).filter (isOverdue (now 3))).length
  upcoming : summary.upcomingTasks
    = ((tables.tasks.filter (isLive w)).filter (isUpcoming session (now 4))).length
  /-- No task is counted both as overdue and as upcoming. -/
  apart : ∀ t, (isOverdue (now 3) t && isUpcoming session (now 4) t) = false
  due : summary.overdueTasks + summary.upcomingTasks
    ≤ summary.totalTasks - summary.completedTasks
  rate : ∃ rate, summary.completionRate = some rate ∧ 0 ≤ rate ∧ rate ≤ 100

/-- **The figures are consistent.**  For all tables that keep their schema, every workspace
    and every clock that does not go back. -/
theorem dashboard_consistent (session : DashboardSession) {tables : DashboardTables}
    (hkept : TablesKept tables) {now : Nat → Int} (hnow : ∀ m n, m ≤ n → now m ≤ now n)
    {w : String} {summary : DashboardSummary} (h : getSummary session tables now w = .ok summary) :
    FiguresConsistent session tables now w summary := by
  obtain ⟨hstatus, hpriority, hproductivity, hoverdue, hupcoming, htotal, hcompleted, hrate⟩ :=
    getSummary_ok h
  have hstatusPerm := session.perm
    (groupCounts TaskColumns.status (tables.tasks.filter (isLive w)))
  rw [← hstatus] at hstatusPerm
  have hstatuses := sum_of_perm hstatusPerm
  have hdone := hcompleted.trans (pick_of_perm hstatusPerm "DONE")
  have htotal' := htotal.trans hstatuses
  have hclock : now 3 ≤ now 4 := hnow 3 4 (by decide)
  have hfigures := length_filters_le fun t (_ : t ∈ tables.tasks.filter (isLive w)) =>
    at_most_one_figure session hclock t
  refine ⟨hstatuses, ?_, htotal', hdone, ?_, hoverdue, hupcoming,
    not_overdue_and_upcoming session hclock, ?_, ?_⟩
  · rw [hpriority]
    exact sum_of_perm (session.perm _)
  · rw [hproductivity, ← length_completedByMember hkept]
    exact sum_of_perm ((List.perm_insertionSort _ _).trans (session.perm _))
  · rw [hoverdue, hupcoming, htotal', hdone]
    omega
  · rw [hrate]
    refine completionRate_bounds ?_
    rw [hdone, htotal']
    exact List.length_filter_le _ _

/-- Tables of a size that Postgres can count as `int` have a summary. -/
theorem getSummary_returns (session : DashboardSession) {tables : DashboardTables}
    (hkept : TablesKept tables) (hprojects : tables.projects.length ≤ 2147483647)
    (htasks : tables.tasks.length ≤ 2147483647) (now : Nat → Int) (w : String) :
    ∃ summary, getSummary session tables now w = .ok summary := by
  have hlive : (tables.tasks.filter (isLive w)).length ≤ 2147483647 :=
    (List.length_filter_le _ _).trans htasks
  have hpart : ∀ p : TaskColumns → Bool,
      ((tables.tasks.filter (isLive w)).filter p).length ≤ 2147483647 :=
    fun p => (List.length_filter_le _ _).trans hlive
  have hgroups : ∀ key : TaskColumns → String,
      castCounts (session.arrange (groupCounts key (tables.tasks.filter (isLive w))))
        = .ok (session.arrange (groupCounts key (tables.tasks.filter (isLive w)))) := by
    intro key
    refine castCounts_of_le ?_
    intro g hg
    exact (count_le_length ((session.perm _).mem_iff.mp hg)).trans hlive
  have hmembers : (completedByMember tables w).length ≤ 2147483647 := by
    rw [length_completedByMember hkept]
    exact ((List.length_filter_le _ _).trans (List.length_filter_le _ _)).trans htasks
  unfold getSummary
  dsimp only
  rw [castInt_of_le ((List.length_filter_le _ _).trans hprojects), hgroups,
    castInt_of_le (hpart _), castInt_of_le (hpart _), hgroups, castCounts_of_le]
  · exact ⟨_, rfl⟩
  · intro g hg
    have hmem := ((List.perm_insertionSort _ _).trans (session.perm _)).mem_iff.mp hg
    exact (count_le_length hmem).trans hmembers

/-- The rows are those that the routes count. -/
theorem live_eq_countedRows (db : Database) (w : String) :
    (dashboardTables db).tasks.filter (isLive w)
      = (countedRows db w).tasks.map taskColumns := by
  show (db.tasks.map taskColumns).filter (isLive w) = _
  rw [List.filter_map]
  refine congrArg (List.map taskColumns) (List.filter_congr ?_)
  intro t _
  show (decide (t.workspaceId = w) && (t.deletedAt.map Int.ofNat).isNone) = _
  rw [Option.isNone_map]

/-- Groups as they are found, and days of the same length. -/
def plainSession : DashboardSession where
  arrange l := l
  perm l := .refl l
  inSevenDays now := now + 604800000

/-- A task that Bob has done, and one that nobody has taken. -/
def twoTasks : DashboardTables where
  projects := []
  tasks := [⟨"w", "DONE", "LOW", some "b", none, none⟩,
    ⟨"w", "TODO", "LOW", none, some 5, none⟩]
  users := [⟨"b", "bob@x", none, "Bob", none, true⟩]

theorem twoTasks_kept : TablesKept twoTasks := by
  refine ⟨by decide, ?_⟩
  intro t ht a ha
  simp only [twoTasks, List.mem_cons, List.not_mem_nil, or_false] at ht
  rcases ht with rfl | rfl
  · exact ⟨_, List.mem_cons_self .., Option.some.inj ha⟩
  · cases ha

theorem dashboard_consistent_twoTasks :
    ∃ summary, getSummary plainSession twoTasks (fun n => n) "w" = .ok summary ∧
      FiguresConsistent plainSession twoTasks (fun n => n) "w" summary := by
  obtain ⟨summary, h⟩ := getSummary_returns plainSession twoTasks_kept (by decide) (by decide)
    (fun n => n) "w"
  exact ⟨summary, h, dashboard_consistent plainSession twoTasks_kept
    (fun _ _ hle => Int.ofNat_le.mpr hle) h⟩

end PlatformApi
