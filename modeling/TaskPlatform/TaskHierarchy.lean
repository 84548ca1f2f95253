import TaskPlatform.SubtaskService
import TaskPlatform.TaskRuns

/-! # The downward hierarchy queries

    Over a consistent database the recursive queries end, and they return each live
    task that hangs below the start by live links, once.  The recursive term does not
    ask for the workspace, and `createTask` takes any parent; so the result is
    confined to the workspace exactly when the links below the task are
    (`hierarchy_exact_iff`). -/

namespace PlatformTasks

open AsyncProgram Interleaving PlatformEntities RowTable RecursiveQuery Relation

/-! ## The hierarchy of a database -/

/-- `b` is a live task whose parent is `a`. -/
structure LiveChild (db : Database) (a b : Task) : Prop where
  stored : b ∈ db.tasks
  live : b.deletedAt = none
  parent : b.parentTaskId = some a.id

/-- Linked to `t` by a chain of parent links through live tasks, in the workspace of
    `t`. -/
def InHierarchy (db : Database) (t x : Task) : Prop :=
  x.workspaceId = t.workspaceId ∧ TransGen (LiveChild db) t x

/-- No link below `t` leads out of a workspace. -/
def LinksStay (db : Database) (t : Task) : Prop :=
  ∀ a b, ReflTransGen (LiveChild db) t a → LiveChild db a b →
    b.workspaceId = a.workspaceId

/-- Where links stay, everything below `t` is in its workspace. -/
theorem LinksStay.workspace {db : Database} {t x : Task} (h : LinksStay db t)
    (hchain : ReflTransGen (LiveChild db) t x) : x.workspaceId = t.workspaceId := by
  induction hchain with
  | refl => rfl
  | tail hchain hlink ih => exact (h _ _ hchain hlink).trans ih

/-! ## Ranks: parents come first -/

/-- The place of an id in the table. -/
def place (db : Database) (id : String) : Nat := (db.tasks.map Task.id).idxOf id

theorem place_lt {db : Database} {t : Task} (ht : t ∈ db.tasks) :
    place db t.id < db.tasks.length := by
  have hlt := List.idxOf_lt_length_of_mem (List.mem_map_of_mem (f := Task.id) ht)
  rw [List.length_map] at hlt
  exact hlt

/-- A parent stands before its child. -/
theorem place_parent {db : Database} (hids : Unique Task.id db.tasks)
    (hparents : ParentsFirst db.tasks) {b : Task} (hb : b ∈ db.tasks) {x : String}
    (hx : b.parentTaskId = some x) : place db x < place db b.id := by
  obtain ⟨l₁, l₂, hl⟩ := List.append_of_mem hb
  obtain ⟨a, ha, rfl⟩ := hparents l₁ b l₂ hl x hx
  have hnodup : (l₁.map Task.id ++ b.id :: l₂.map Task.id).Nodup := by
    have h : (db.tasks.map Task.id).Nodup := hids
    rw [hl, List.map_append, List.map_cons] at h
    exact h
  have hnot : b.id ∉ l₁.map Task.id := fun h =>
    (List.nodup_append.mp hnodup).2.2 _ h _ (List.mem_cons_self ..) rfl
  have ha' : a.id ∈ l₁.map Task.id := List.mem_map_of_mem ha
  unfold place
  rw [hl, List.map_append, List.map_cons, List.idxOf_append_of_mem ha',
    List.idxOf_append_of_notMem hnot, List.idxOf_cons_self]
  have := List.idxOf_lt_length_of_mem ha'
  omega

section Consistent

variable {db : Database} (hids : Unique Task.id db.tasks)
  (hparents : ParentsFirst db.tasks)

include hids hparents in
theorem not_below_self (t : Task) : ¬ TransGen (LiveChild db) t t := by
  have hup : ∀ {a b}, TransGen (LiveChild db) a b → place db a.id < place db b.id := by
    intro a b h
    induction h with
    | single hlink => exact place_parent hids hparents hlink.stored hlink.parent
    | tail _ hlink ih =>
        exact ih.trans (place_parent hids hparents hlink.stored hlink.parent)
  exact fun h => absurd (hup h) (lt_irrefl _)

/-! ## The recursive term -/

theorem mem_selectTasks {condition : Task → Bool} {row : TreeRow} :
    row ∈ selectTasks db condition ↔
      ∃ t ∈ db.tasks, condition t = true ∧ row = selectColumns t := by
  unfold selectTasks
  rw [List.mem_map]
  constructor
  · rintro ⟨t, ht, rfl⟩
    obtain ⟨hmem, hc⟩ := List.mem_filter.mp ht
    exact ⟨t, hmem, hc, rfl⟩
  · rintro ⟨t, hmem, hc, rfl⟩
    exact ⟨t, List.mem_filter.mpr ⟨hmem, hc⟩, rfl⟩

/-- The recursive term joins to a task its live children. -/
theorem link_joinSubtasks {st row : TreeRow} :
    Link (joinSubtasks db) st row ↔
      ∃ b ∈ db.tasks, b.deletedAt = none ∧ b.parentTaskId = some st.id ∧
        row = selectColumns b := by
  unfold Link joinSubtasks
  rw [mem_selectTasks]
  constructor
  · rintro ⟨b, hb, hc, rfl⟩
    rw [Bool.and_eq_true, Option.isNone_iff_eq_none] at hc
    exact ⟨b, hb, hc.2, of_decide_eq_true hc.1, rfl⟩
  · rintro ⟨b, hb, hlive, hparent, rfl⟩
    refine ⟨b, hb, ?_, rfl⟩
    rw [Bool.and_eq_true, Option.isNone_iff_eq_none]
    exact ⟨decide_eq_true hparent, hlive⟩

/-- A chain of joins is a chain of live links. -/
theorem chain_joinSubtasks {t : Task} {row : TreeRow} :
    ReflTransGen (Link (joinSubtasks db)) (selectColumns t) row ↔
      ∃ x, ReflTransGen (LiveChild db) t x ∧ row = selectColumns x := by
  constructor
  · intro h
    induction h with
    | refl => exact ⟨t, .refl, rfl⟩
    | tail _ hlink ih =>
        obtain ⟨x, hchain, rfl⟩ := ih
        obtain ⟨b, hb, hlive, hparent, rfl⟩ := link_joinSubtasks.mp hlink
        exact ⟨b, hchain.tail ⟨hb, hlive, hparent⟩, rfl⟩
  · rintro ⟨x, hchain, rfl⟩
    induction hchain with
    | refl => exact .refl
    | tail _ hlink ih =>
        exact ih.tail (link_joinSubtasks.mpr
          ⟨_, hlink.stored, hlink.live, hlink.parent, rfl⟩)

include hids hparents in
theorem joinSubtasks_climbs :
    Climbs (joinSubtasks db) (fun row => place db row.id) db.tasks.length := by
  constructor
  · intro st row hlink
    obtain ⟨b, hb, -, hparent, rfl⟩ := link_joinSubtasks.mp hlink
    exact place_parent hids hparents hb hparent
  · intro st row hlink
    obtain ⟨b, hb, -, -, rfl⟩ := link_joinSubtasks.mp hlink
    exact place_lt hb

include hids in
/-- Rows of the table are told apart by their id. -/
theorem selectColumns_inj {a b : Task} (ha : a ∈ db.tasks) (hb : b ∈ db.tasks)
    (h : (selectColumns a).id = (selectColumns b).id) : a = b :=
  hids.eq_of_key ha hb h

include hids in
theorem selectTasks_ids (condition : Task → Bool) :
    Unique TreeRow.id (selectTasks db condition) := by
  show ((selectTasks db condition).map TreeRow.id).Nodup
  rw [selectTasks, List.map_map]
  exact (hids.sublist (List.filter_sublist.map Task.id) :
    ((db.tasks.filter condition).map Task.id).Nodup)

include hids in
theorem joinSubtasks_oneParent :
    OneParent (joinSubtasks db) fun row => ∃ t ∈ db.tasks, row = selectColumns t := by
  refine ⟨?_, ?_, ?_⟩
  · rintro a - b hlink
    obtain ⟨t, ht, -, -, rfl⟩ := link_joinSubtasks.mp hlink
    exact ⟨t, ht, rfl⟩
  · rintro a b x ⟨ta, hta, rfl⟩ ⟨tb, htb, rfl⟩ hax hbx
    obtain ⟨c, hc, -, hca, rfl⟩ := link_joinSubtasks.mp hax
    obtain ⟨d, hd, -, hdb, heq⟩ := link_joinSubtasks.mp hbx
    rw [selectColumns_inj hids hc hd (congrArg TreeRow.id heq)] at hca
    rw [selectColumns_inj hids hta htb (Option.some.inj (hca.symm.trans hdb))]
  · intro a _
    exact (selectTasks_ids hids _).of_map

/-! ## The two queries -/

/-- The check passes for a live task of the workspace. -/
theorem taskCheck_live {t : Task} (ht : t ∈ db.tasks) (hlive : t.deletedAt = none) :
    taskCheck db t.id t.workspaceId = true := by
  unfold taskCheck
  rw [List.any_eq_true]
  exact ⟨t, ht, by simp [hlive]⟩

include hids hparents in
/-- The rows of a hierarchy query whose base rows are live and in the table: the query
    comes back with what hangs below them. -/
theorem hierarchyQuery_rows {t : Task} (ht : t ∈ db.tasks) (hlive : t.deletedAt = none)
    (order : RowOrder) {rounds : Nat} (hr : db.tasks.length ≤ rounds)
    (condition : Task → Bool) :
    ∃ rows, (∀ x, x ∈ rows ↔ ∃ b ∈ selectTasks db condition,
        ReflTransGen (Link (joinSubtasks db)) b x) ∧
      withRecursive (joinSubtasks db) rounds (selectTasks db condition) = some rows ∧
      ∀ {α : Type} (result : List TreeRow → α),
        hierarchyQuery order rounds db t.id t.workspaceId (selectTasks db condition) result
          = some (.ok (result (order.arrange rows))) := by
  have hbase : ∀ b ∈ selectTasks db condition, place db b.id < db.tasks.length ∧
      db.tasks.length ≤ place db b.id + rounds := by
    intro b hb
    obtain ⟨x, hx, -, rfl⟩ := mem_selectTasks.mp hb
    exact ⟨place_lt hx, by omega⟩
  obtain ⟨rows, hrows⟩ := withRecursive_ends (joinSubtasks_climbs hids hparents) rounds
    (selectTasks db condition) hbase
  refine ⟨rows, mem_withRecursive hrows, hrows, ?_⟩
  intro α result
  unfold hierarchyQuery
  rw [if_pos (taskCheck_live ht hlive), hrows]
  rfl

include hids hparents in
/-- **The tree.**  It is built, and holds the task and all live tasks that hang below it
    by live links, of whatever workspace. -/
theorem getTaskTree_rows (hnamed : ∀ r ∈ db.tasks, r.id ≠ "") {t : Task}
    (ht : t ∈ db.tasks) (hlive : t.deletedAt = none) (order : RowOrder) {rounds : Nat}
    (hr : db.tasks.length ≤ rounds) :
    ∃ node, getTaskTree order rounds db t.id t.workspaceId = some (.ok (some node)) ∧
      ∀ row, row ∈ node.rows ↔
        ∃ x, ReflTransGen (LiveChild db) t x ∧ row = selectColumns x := by
  obtain ⟨rows, hmem, hout, hquery⟩ :=
    hierarchyQuery_rows hids hparents ht hlive order hr fun r =>
      r.id = t.id && r.workspaceId = t.workspaceId && r.deletedAt.isNone
  -- the base row is that of the task
  have hbase : ∀ b, b ∈ selectTasks db (fun r =>
      r.id = t.id && r.workspaceId = t.workspaceId && r.deletedAt.isNone) ↔
      b = selectColumns t := by
    intro b
    rw [mem_selectTasks]
    constructor
    · rintro ⟨r, hr, hc, rfl⟩
      rw [Bool.and_eq_true, Bool.and_eq_true] at hc
      rw [hids.eq_of_key hr ht (of_decide_eq_true hc.1.1)]
    · rintro rfl
      exact ⟨t, ht, by simp [hlive], rfl⟩
  have hrows : ∀ row, row ∈ rows ↔
      ∃ x, ReflTransGen (LiveChild db) t x ∧ row = selectColumns x := by
    intro row
    rw [hmem]
    constructor
    · rintro ⟨b, hb, hchain⟩
      rw [(hbase b).mp hb] at hchain
      exact chain_joinSubtasks.mp hchain
    · intro h
      exact ⟨selectColumns t, (hbase _).mpr rfl, chain_joinSubtasks.mpr h⟩
  have hstored : ∀ row ∈ rows, ∃ x ∈ db.tasks, row = selectColumns x := by
    intro row hrow
    obtain ⟨x, hchain, rfl⟩ := (hrows row).mp hrow
    rcases ReflTransGen.cases_tail hchain with rfl | ⟨y, -, hlink⟩
    · exact ⟨x, ht, rfl⟩
    · exact ⟨x, hlink.stored, rfl⟩
  have hunique : RowTable.Unique TreeRow.id rows := by
    have hnodup : rows.Nodup := by
      refine withRecursive_nodup (joinSubtasks_oneParent hids) hout
        (selectTasks_ids hids _).of_map ?_ ?_
      · intro a ha
        exact ⟨t, ht, (hbase a).mp ha⟩
      · intro a ha b hb hchain
        rw [(hbase a).mp ha, (hbase b).mp hb] at hchain
        exact absurd ((joinSubtasks_climbs hids hparents).chain hchain) (lt_irrefl _)
    refine hnodup.map_on ?_
    intro a ha b hb hab
    obtain ⟨x, hx, rfl⟩ := hstored a ha
    obtain ⟨y, hy, rfl⟩ := hstored b hb
    rw [selectColumns_inj hids hx hy hab]
  have hperm := order.perm rows
  have hroot : selectColumns t ∈ order.arrange rows :=
    hperm.mem_iff.mpr ((hrows _).mpr ⟨t, .refl, rfl⟩)
  have hup : ∀ a ∈ order.arrange rows, ∀ b ∈ order.arrange rows,
      truthy b.parentTaskId = some a.id → place db a.id < place db b.id := by
    intro a _ b hb hparent
    obtain ⟨y, hy, rfl⟩ := hstored b (hperm.mem_iff.mp hb)
    exact place_parent hids hparents hy (truthy_eq_some.mp hparent).1
  -- every row but the root was joined to its parent
  have hjoined : ∀ b ∈ order.arrange rows, b ≠ selectColumns t →
      ∃ a ∈ order.arrange rows, truthy b.parentTaskId = some a.id := by
    intro b hb hne
    obtain ⟨y, hchain, rfl⟩ := (hrows b).mp (hperm.mem_iff.mp hb)
    rcases ReflTransGen.cases_tail hchain with rfl | ⟨x, hx, hlink⟩
    · exact absurd rfl hne
    · have hxrows : selectColumns x ∈ rows := (hrows _).mpr ⟨x, hx, rfl⟩
      obtain ⟨x', hx', heq⟩ := hstored _ hxrows
      have hid : x.id = x'.id := congrArg TreeRow.id heq
      refine ⟨selectColumns x, hperm.mem_iff.mpr hxrows, truthy_eq_some.mpr
        ⟨hlink.parent, ?_⟩⟩
      show x.id ≠ ""
      rw [hid]
      exact hnamed x' hx'
  obtain ⟨node, hnode, hnodes⟩ := buildTree_rows
    ((hperm.map TreeRow.id).nodup_iff.mpr hunique) hroot (place db) hup hjoined
  refine ⟨node, ?_, ?_⟩
  · have hid : (selectColumns t).id = t.id := rfl
    rw [getTaskTree, hquery, ← hid, hnode]
  · intro row
    rw [hnodes, hperm.mem_iff]
    exact hrows row

include hids hparents in
/-- **The descendants.**  The children in the workspace, and all that hangs below
    them. -/
theorem getDescendants_rows {t : Task} (ht : t ∈ db.tasks) (hlive : t.deletedAt = none)
    (order : RowOrder) {rounds : Nat} (hr : db.tasks.length ≤ rounds) :
    ∃ rows, getDescendants order rounds db t.id t.workspaceId = some (.ok rows) ∧
      ∀ row, row ∈ rows ↔ ∃ b x, LiveChild db t b ∧ b.workspaceId = t.workspaceId ∧
        ReflTransGen (LiveChild db) b x ∧ row = selectColumns x := by
  obtain ⟨rows, hmem, -, hquery⟩ :=
    hierarchyQuery_rows hids hparents ht hlive order hr fun r =>
      r.parentTaskId = some t.id && r.workspaceId = t.workspaceId && r.deletedAt.isNone
  refine ⟨_, by rw [getDescendants]; exact hquery _, ?_⟩
  intro row
  rw [(List.perm_insertionSort _ _).mem_iff, (order.perm rows).mem_iff, hmem]
  constructor
  · rintro ⟨st, hst, hchain⟩
    obtain ⟨b, hb, hc, rfl⟩ := mem_selectTasks.mp hst
    rw [Bool.and_eq_true, Bool.and_eq_true, Option.isNone_iff_eq_none] at hc
    obtain ⟨x, hx, rfl⟩ := chain_joinSubtasks.mp hchain
    exact ⟨b, x, ⟨hb, hc.2, of_decide_eq_true hc.1.1⟩, of_decide_eq_true hc.1.2, hx, rfl⟩
  · rintro ⟨b, x, hchild, hw, hx, rfl⟩
    refine ⟨selectColumns b, mem_selectTasks.mpr ⟨b, hchild.stored, ?_, rfl⟩,
      chain_joinSubtasks.mpr ⟨x, hx, rfl⟩⟩
    simp [hchild.parent, hw, hchild.live]

include hids hparents in
/-- **The ancestors.**  The live parent, and all that hangs below it. -/
theorem getAncestors_rows {t : Task} (ht : t ∈ db.tasks) (hlive : t.deletedAt = none)
    (order : RowOrder) {rounds : Nat} (hr : db.tasks.length ≤ rounds) :
    ∃ rows, getAncestors order rounds db t.id t.workspaceId = some (.ok rows) ∧
      ∀ row, row ∈ rows ↔ ∃ p x, p ∈ db.tasks ∧ p.deletedAt = none ∧
        t.parentTaskId = some p.id ∧ ReflTransGen (LiveChild db) p x ∧
        row = selectColumns x := by
  obtain ⟨rows, hmem, -, hquery⟩ :=
    hierarchyQuery_rows hids hparents ht hlive order hr fun r =>
      parentOf db t.id t.workspaceId = some r.id && r.deletedAt.isNone
  -- the subquery finds `t` itself, and its parent
  have hparent : parentOf db t.id t.workspaceId = t.parentTaskId := by
    unfold parentOf
    cases h : db.tasks.find? fun r =>
        r.id = t.id && r.workspaceId = t.workspaceId && r.deletedAt.isNone with
    | none =>
        have := List.find?_eq_none.mp h t ht
        simp [hlive] at this
    | some r =>
        have hc := List.find?_some h
        rw [Bool.and_eq_true, Bool.and_eq_true] at hc
        rw [hids.eq_of_key (List.mem_of_find?_eq_some h) ht (of_decide_eq_true hc.1.1)]
        rfl
  refine ⟨_, by rw [getAncestors]; exact hquery _, ?_⟩
  intro row
  rw [(List.perm_insertionSort _ _).mem_iff, (order.perm rows).mem_iff, hmem]
  constructor
  · -- the join takes the children of what is there: down again from the parent
    rintro ⟨st, hst, hchain⟩
    obtain ⟨p, hp, hc, rfl⟩ := mem_selectTasks.mp hst
    rw [Bool.and_eq_true, Option.isNone_iff_eq_none, hparent] at hc
    obtain ⟨x, hx, rfl⟩ := chain_joinSubtasks.mp hchain
    exact ⟨p, x, hp, hc.2, of_decide_eq_true hc.1, hx, rfl⟩
  · rintro ⟨p, x, hp, hplive, hpt, hx, rfl⟩
    refine ⟨selectColumns p, mem_selectTasks.mpr ⟨p, hp, ?_, rfl⟩,
      chain_joinSubtasks.mpr ⟨x, hx, rfl⟩⟩
    rw [hparent]
    simp [hpt, hplive]

end Consistent

/-! ## Exactness -/

/-- The tree of `t` holds `t` and the live tasks of its workspace that hang below it by
    live links, and nothing else; the descendants are the same without `t`. -/
def HierarchyExact (order : RowOrder) (rounds : Nat) (db : Database) (t : Task) : Prop :=
  ∃ node rows, getTaskTree order rounds db t.id t.workspaceId = some (.ok (some node)) ∧
    getDescendants order rounds db t.id t.workspaceId = some (.ok rows) ∧
    (∀ row, row ∈ node.rows ↔
      row = selectColumns t ∨ ∃ x, InHierarchy db t x ∧ row = selectColumns x) ∧
    ∀ row, row ∈ rows ↔ row ∈ node.rows ∧ row ≠ selectColumns t

/-- **When the hierarchy is exact.**  In every reachable table, for every live task and
    whatever order the rows come back in: tree and descendants are the live tasks of
    the workspace below the task exactly when no link below the task leads out of a
    workspace. -/
theorem hierarchy_exact_iff (pg : PostgresText) (s : TaskState) (hs : Reachable pg s)
    (t : Task) (ht : t ∈ s.db.tasks) (hlive : t.deletedAt = none) (order : RowOrder)
    (rounds : Nat) (hr : s.db.tasks.length ≤ rounds) :
    HierarchyExact order rounds s.db t ↔ LinksStay s.db t := by
  obtain ⟨hids, hnamed, hparents, -, -⟩ := hs.consistent
  obtain ⟨node, hnode, hnodes⟩ := getTaskTree_rows hids hparents hnamed ht hlive order hr
  obtain ⟨rows, hdesc, hrows⟩ := getDescendants_rows hids hparents ht hlive order hr
  have hstored : ∀ x, ReflTransGen (LiveChild s.db) t x → x ∈ s.db.tasks := by
    intro x hchain
    rcases ReflTransGen.cases_tail hchain with rfl | ⟨y, -, hlink⟩
    · exact ht
    · exact hlink.stored
  constructor
  · rintro ⟨node', rows', hnode', -, hexact, -⟩
    rw [hnode] at hnode'
    cases hnode'
    -- every task of the tree is in the workspace of `t`
    have hscoped : ∀ x, ReflTransGen (LiveChild s.db) t x →
        x.workspaceId = t.workspaceId := by
      intro x hx
      rcases (hexact _).mp ((hnodes _).mpr ⟨x, hx, rfl⟩) with heq | ⟨y, ⟨hw, hy⟩, heq⟩
      · rw [selectColumns_inj hids (hstored x hx) ht (congrArg TreeRow.id heq)]
      · rw [selectColumns_inj hids (hstored x hx) (hstored y hy.to_reflTransGen)
          (congrArg TreeRow.id heq)]
        exact hw
    intro a b ha hab
    rw [hscoped a ha, hscoped b (ha.tail hab)]
  · intro hstay
    refine ⟨node, rows, hnode, hdesc, ?_, ?_⟩
    · intro row
      rw [hnodes]
      constructor
      · rintro ⟨x, hx, rfl⟩
        rcases reflTransGen_iff_eq_or_transGen.mp hx with rfl | hx'
        · exact Or.inl rfl
        · exact Or.inr ⟨x, ⟨hstay.workspace hx, hx'⟩, rfl⟩
      · rintro (rfl | ⟨x, ⟨-, hx⟩, rfl⟩)
        · exact ⟨t, .refl, rfl⟩
        · exact ⟨x, hx.to_reflTransGen, rfl⟩
    · intro row
      rw [hrows, hnodes]
      constructor
      · rintro ⟨b, x, hchild, -, hx, rfl⟩
        have hbelow : TransGen (LiveChild s.db) t x := .head' hchild hx
        refine ⟨⟨x, hbelow.to_reflTransGen, rfl⟩, ?_⟩
        intro heq
        rw [selectColumns_inj hids (hstored x hbelow.to_reflTransGen) ht
          (congrArg TreeRow.id heq)] at hbelow
        exact not_below_self hids hparents t hbelow
      · rintro ⟨⟨x, hx, rfl⟩, hne⟩
        rcases ReflTransGen.cases_head hx with rfl | ⟨b, hchild, hbx⟩
        · exact absurd rfl hne
        · exact ⟨b, x, hchild, hstay t b .refl hchild, hbx, rfl⟩

/-- Rows come back as they are stored. -/
def asStored : RowOrder := ⟨fun l => l, fun l => .refl l⟩

/-- The office next to a second tenant. -/
def twoTenants : TaskState :=
  { office with
    db :=
      { office.db with
        workspaces := office.db.workspaces ++ [⟨"v", "Vault", "vault", "b"⟩]
        projects := office.db.projects ++ [⟨"r", "v", "Rival", none, "ACTIVE", 0⟩] } }

/-- The task "1" of the office, and then a subtask "2" of it in a workspace. -/
def withSubtask (workspaceId projectId : String) : TaskState :=
  (run (exec plainText)
    (pool twoTenants [.createTask "w" "p" "a" { title := "Plan" },
      .createTask workspaceId projectId "b" { title := "Step", parentTaskId := some "1" }])
    (turns [0, 0, 0, 0, 0] ++ [1, 1, 1, 1, 1].map fun i => (i, ⟨0, [], "2"⟩))).shared

theorem withSubtask_reachable (w p : String) : Reachable plainText (withSubtask w p) :=
  ⟨twoTenants, _, _, ⟨rfl, fun _ => rfl⟩, rfl⟩

/-- A subtask in the workspace of its parent. -/
theorem hierarchy_exact_within :
    HierarchyExact asStored 2 (withSubtask "w" "p").db planTask := by
  have hall : ∀ t ∈ (withSubtask "w" "p").db.tasks, t.workspaceId = "w" := by decide
  refine (hierarchy_exact_iff plainText (withSubtask "w" "p") (withSubtask_reachable "w" "p")
    planTask (by decide) rfl asStored 2 (by decide)).mpr ?_
  intro a b hbelow hlink
  rw [hall b hlink.stored]
  rcases ReflTransGen.cases_tail hbelow with rfl | ⟨c, -, hlink'⟩
  · rfl
  · exact (hall a hlink'.stored).symm

/-- A subtask in the other workspace: the tree shows it, the descendants do not. -/
theorem hierarchy_crosses_tenants :
    Reachable plainText (withSubtask "v" "r") ∧ planTask ∈ (withSubtask "v" "r").db.tasks ∧
      planTask.deletedAt = none ∧
      ¬ HierarchyExact asStored 2 (withSubtask "v" "r").db planTask := by
  refine ⟨withSubtask_reachable "v" "r", by decide, rfl, ?_⟩
  rintro ⟨node, rows, hnode, hrows, -, hagree⟩
  have hdesc : rows = [] := by
    cases hrows
    decide
  have hstep : ∃ row ∈ node.rows, row ≠ selectColumns planTask := by
    cases hnode
    decide
  obtain ⟨row, hrow, hne⟩ := hstep
  have hmem := (hagree row).mpr ⟨hrow, hne⟩
  rw [hdesc] at hmem
  exact absurd hmem List.not_mem_nil

end PlatformTasks
