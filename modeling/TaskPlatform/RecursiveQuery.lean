import Mathlib.Data.Finset.Card
import Mathlib.Data.List.Nodup
import Mathlib.Logic.Relation
import Mathlib.Order.Nat

/-! # Recursive queries and the trees built from their rows

    `WITH RECURSIVE` with `UNION ALL` works in rounds: the base rows are the first
    working table, the rows that the recursive term joins to the working table are
    the next one, and the query ends when a working table is empty.  `grow` unfolds
    the same links into a tree.

    Both reach exactly the rows that a chain of links leads to
    (`mem_withRecursive`, `grow_rows`), and both end where links climb in a bounded
    rank (`withRecursive_ends`). -/

namespace RecursiveQuery

open Relation

variable {ρ : Type} (next : ρ → List ρ)

/-- The recursive term joins `b` to the working row `a`. -/
def Link (a b : ρ) : Prop := b ∈ next a

/-- The result of the query from a working table, if it ends within that many
    rounds. -/
def withRecursive : Nat → List ρ → Option (List ρ)
  | _, [] => some []
  | 0, _ :: _ => none
  | n + 1, work => (withRecursive n (work.flatMap next)).map (work ++ ·)

@[simp] theorem withRecursive_nil (n : Nat) : withRecursive next n [] = some [] := by
  cases n <;> rfl

theorem withRecursive_succ (n : Nat) (work : List ρ) :
    withRecursive next (n + 1) work
      = (withRecursive next n (work.flatMap next)).map (work ++ ·) := by
  cases work with
  | nil => simp
  | cons hd rest => rfl

variable {next}

/-- **What the query returns.**  Exactly the rows that a chain of links reaches from a
    base row. -/
theorem mem_withRecursive {n : Nat} {work out : List ρ}
    (h : withRecursive next n work = some out) (x : ρ) :
    x ∈ out ↔ ∃ b ∈ work, ReflTransGen (Link next) b x := by
  induction n generalizing work out with
  | zero =>
      cases work with
      | nil =>
          rw [withRecursive_nil] at h
          rw [← Option.some.inj h]
          simp
      | cons hd rest => exact nomatch h
  | succ n ih =>
      rw [withRecursive_succ] at h
      obtain ⟨out', hout', rfl⟩ := Option.map_eq_some_iff.mp h
      rw [List.mem_append, ih hout']
      constructor
      · rintro (hx | ⟨b', hb', hchain⟩)
        · exact ⟨x, hx, .refl⟩
        · obtain ⟨b, hb, hlink⟩ := List.mem_flatMap.mp hb'
          exact ⟨b, hb, hchain.head hlink⟩
      · rintro ⟨b, hb, hchain⟩
        rcases ReflTransGen.cases_head hchain with rfl | ⟨b', hlink, hchain⟩
        · exact Or.inl hb
        · exact Or.inr ⟨b', List.mem_flatMap.mpr ⟨b, hb, hlink⟩, hchain⟩

/-- Links that climb in a rank below `N`. -/
structure Climbs (next : ρ → List ρ) (rank : ρ → Nat) (N : Nat) : Prop where
  up : ∀ a b, Link next a b → rank a < rank b
  bound : ∀ a b, Link next a b → rank b < N

/-- **The query ends.**  Every round climbs, so `N` rounds are enough. -/
theorem withRecursive_ends {rank : ρ → Nat} {N : Nat} (h : Climbs next rank N) (n : Nat)
    (work : List ρ) (hwork : ∀ b ∈ work, rank b < N ∧ N ≤ rank b + n) :
    ∃ out, withRecursive next n work = some out := by
  induction n generalizing work with
  | zero =>
      cases work with
      | nil => exact ⟨[], rfl⟩
      | cons hd rest =>
          have := hwork hd (List.mem_cons_self ..)
          omega
  | succ n ih =>
      have hnext : ∀ b ∈ work.flatMap next, rank b < N ∧ N ≤ rank b + n := by
        intro b hb
        obtain ⟨a, ha, hlink⟩ := List.mem_flatMap.mp hb
        have := hwork a ha
        have := h.up a b hlink
        have := h.bound a b hlink
        omega
      obtain ⟨out, hout⟩ := ih _ hnext
      exact ⟨work ++ out, by rw [withRecursive_succ, hout]; rfl⟩

/-- More rounds change nothing. -/
theorem withRecursive_mono {n m : Nat} {work out : List ρ}
    (h : withRecursive next n work = some out) (hm : n ≤ m) :
    withRecursive next m work = some out := by
  induction n generalizing m work out with
  | zero =>
      cases work with
      | nil =>
          rw [withRecursive_nil] at h ⊢
          exact h
      | cons hd rest => cases h
  | succ n ih =>
      cases m with
      | zero => omega
      | succ m =>
          rw [withRecursive_succ] at h ⊢
          obtain ⟨out', hout', rfl⟩ := Option.map_eq_some_iff.mp h
          rw [ih hout' (by omega)]
          rfl

/-- **How long the query takes.**  A query that ends does so within as many rounds as it
    returns rows. -/
theorem withRecursive_rounds {n : Nat} {work out : List ρ}
    (h : withRecursive next n work = some out) :
    withRecursive next out.length work = some out := by
  induction n generalizing work out with
  | zero =>
      cases work with
      | nil =>
          rw [withRecursive_nil] at h ⊢
          exact h
      | cons hd rest => cases h
  | succ n ih =>
      cases work with
      | nil =>
          rw [withRecursive_nil] at h ⊢
          exact h
      | cons hd rest =>
          rw [withRecursive_succ] at h
          obtain ⟨out', hout', rfl⟩ := Option.map_eq_some_iff.mp h
          -- the first round returns `hd` at least
          have hlong : (hd :: rest ++ out').length = (rest ++ out').length + 1 := rfl
          have hrest : out'.length ≤ (rest ++ out').length := by simp
          rw [hlong, withRecursive_succ, withRecursive_mono (ih hout') hrest]
          rfl

/-- Rows of which each has one predecessor at most. -/
structure OneParent (next : ρ → List ρ) (S : ρ → Prop) : Prop where
  closed : ∀ a, S a → ∀ b, Link next a b → S b
  unique : ∀ a b x, S a → S b → Link next a x → Link next b x → a = b
  nodup : ∀ a, S a → (next a).Nodup

/-- What a chain of links leads to is such a row. -/
theorem OneParent.reach {S : ρ → Prop} (h : OneParent next S) {a b : ρ} (ha : S a)
    (hchain : ReflTransGen (Link next) a b) : S b := by
  induction hchain with
  | refl => exact ha
  | tail _ hlink ih => exact h.closed _ ih _ hlink

/-- **No row comes twice.**  Where every row has one predecessor at most and no row of
    the first working table is below another. -/
theorem withRecursive_nodup {S : ρ → Prop} (h : OneParent next S) {n : Nat}
    {work out : List ρ} (hout : withRecursive next n work = some out)
    (hwork : work.Nodup) (hS : ∀ a ∈ work, S a)
    (hanti : ∀ a ∈ work, ∀ b ∈ work, ¬ TransGen (Link next) a b) : out.Nodup := by
  induction n generalizing work out with
  | zero =>
      cases work with
      | nil =>
          rw [withRecursive_nil] at hout
          rw [← Option.some.inj hout]
          exact List.nodup_nil
      | cons hd rest => cases hout
  | succ n ih =>
      rw [withRecursive_succ] at hout
      obtain ⟨out', hout', rfl⟩ := Option.map_eq_some_iff.mp hout
      have hnext : (work.flatMap next).Nodup := by
        refine List.nodup_flatMap.mpr ⟨fun a ha => h.nodup a (hS a ha), ?_⟩
        refine hwork.pairwise_of_forall_ne ?_
        intro a ha b hb hab x hxa hxb
        exact hab (h.unique a b x (hS a ha) (hS b hb) hxa hxb)
      have hnextS : ∀ b ∈ work.flatMap next, S b := by
        intro b hb
        obtain ⟨a, ha, hlink⟩ := List.mem_flatMap.mp hb
        exact h.closed a (hS a ha) b hlink
      -- a chain between two rows of the next table would be one between their parents
      have hnextAnti : ∀ c ∈ work.flatMap next, ∀ d ∈ work.flatMap next,
          ¬ TransGen (Link next) c d := by
        intro c hc d hd hchain
        obtain ⟨a, ha, hac⟩ := List.mem_flatMap.mp hc
        obtain ⟨b, hb, hbd⟩ := List.mem_flatMap.mp hd
        obtain ⟨e, hce, hed⟩ := TransGen.tail'_iff.mp hchain
        have hSe : S e := h.reach (hnextS c hc) hce
        rw [h.unique e b d hSe (hS b hb) hed hbd] at hce
        exact hanti a ha b hb (TransGen.head' hac hce)
      refine List.nodup_append.mpr ⟨hwork, ih hout' hnext hnextS hnextAnti, ?_⟩
      rintro x hx y hy rfl
      obtain ⟨b, hb, hchain⟩ := (mem_withRecursive hout' x).mp hy
      obtain ⟨a, ha, hlink⟩ := List.mem_flatMap.mp hb
      exact hanti a ha x hx (TransGen.head' hlink hchain)

/-- A chain of links climbs. -/
theorem Climbs.chain {rank : ρ → Nat} {N : Nat} (h : Climbs next rank N) {a b : ρ}
    (hchain : TransGen (Link next) a b) : rank a < rank b := by
  induction hchain with
  | single hlink => exact h.up _ _ hlink
  | tail _ hlink ih => exact ih.trans (h.up _ _ hlink)

/-- Any rank on the rows of a list can be replaced by one below its length. -/
theorem exists_rank_lt_length (rank : ρ → Nat) (l : List ρ) :
    ∃ rank' : ρ → Nat, (∀ a ∈ l, rank' a < l.length) ∧
      (∀ a b, rank a = rank b → rank' a = rank' b) ∧
      ∀ a b, a ∈ l → rank a < rank b → rank' a < rank' b := by
  refine ⟨fun a => l.countP (fun x => decide (rank x < rank a)), ?_, ?_, ?_⟩
  · intro a ha
    refine lt_of_le_of_ne List.countP_le_length ?_
    intro heq
    have := List.countP_eq_length.mp heq a ha
    simp at this
  · intro a b hab
    show l.countP _ = l.countP _
    rw [hab]
  · intro a b ha hab
    show l.countP _ < l.countP _
    -- all that is below `a` is below `b`, and `a` itself is
    induction l with
    | nil => exact absurd ha List.not_mem_nil
    | cons hd rest ih =>
        have hmono : rest.countP (fun x => decide (rank x < rank a))
            ≤ rest.countP (fun x => decide (rank x < rank b)) := by
          refine List.countP_mono_left ?_
          intro x _ hx
          have hx' : rank x < rank a := of_decide_eq_true hx
          exact decide_eq_true (hx'.trans hab)
        rcases List.mem_cons.mp ha with rfl | ha
        · rw [List.countP_cons_of_neg (by simp), List.countP_cons_of_pos (by simpa using hab)]
          omega
        · have := ih ha
          rw [List.countP_cons, List.countP_cons]
          by_cases hx : rank hd < rank a
          · rw [if_pos (by simpa using hx), if_pos (by simpa using hx.trans hab)]
            omega
          · rw [if_neg (by simpa using hx)]
            omega

/-! ## Trees -/

/-- Rows with the trees below them. -/
inductive RoseTree (ρ : Type) where
  | node (row : ρ) (children : List (RoseTree ρ))

mutual

/-- The rows of a tree, each before the rows below it. -/
def RoseTree.rows : RoseTree ρ → List ρ
  | .node row children => row :: forestRows children

/-- The rows of trees, each before those below it. -/
def forestRows : List (RoseTree ρ) → List ρ
  | [] => []
  | t :: rest => t.rows ++ forestRows rest

end

theorem mem_forestRows {l : List (RoseTree ρ)} {x : ρ} :
    x ∈ forestRows l ↔ ∃ t ∈ l, x ∈ t.rows := by
  induction l with
  | nil => simp [forestRows]
  | cons t rest ih => simp [forestRows, ih]

variable (next)

/-- The tree of links below a row, if it is no deeper than that. -/
def grow : Nat → ρ → Option (RoseTree ρ)
  | 0, _ => none
  | n + 1, row => ((next row).mapM (grow n)).map (.node row)

variable {next}

/-- Growing every row of a list. -/
theorem mapM_some {α β : Type} {f : α → Option β} {l : List α}
    (h : ∀ a ∈ l, ∃ b, f a = some b) :
    ∃ bs, l.mapM f = some bs ∧ ∀ b, b ∈ bs ↔ ∃ a ∈ l, f a = some b := by
  induction l with
  | nil => exact ⟨[], rfl, by simp⟩
  | cons a rest ih =>
      obtain ⟨b, hb⟩ := h a (List.mem_cons_self ..)
      obtain ⟨bs, hbs, hmem⟩ := ih fun a' ha' => h a' (List.mem_cons_of_mem _ ha')
      refine ⟨b :: bs, by rw [List.mapM_cons, hb, hbs]; rfl, ?_⟩
      intro b'
      rw [List.mem_cons, hmem]
      constructor
      · rintro (rfl | ⟨a', ha', hb'⟩)
        · exact ⟨a, List.mem_cons_self .., hb⟩
        · exact ⟨a', List.mem_cons_of_mem _ ha', hb'⟩
      · rintro ⟨a', ha', hb'⟩
        rcases List.mem_cons.mp ha' with rfl | ha'
        · rw [hb] at hb'
          exact Or.inl (Option.some.inj hb').symm
        · exact Or.inr ⟨a', ha', hb'⟩

/-- **What the tree holds.**  Where links climb the tree is finite, and its rows are
    exactly those that a chain of links reaches. -/
theorem grow_rows {rank : ρ → Nat} {N : Nat} (h : Climbs next rank N) (n : Nat) (row : ρ)
    (hrow : rank row < N) (hn : N ≤ rank row + n) :
    ∃ t, grow next n row = some t ∧
      ∀ x, x ∈ t.rows ↔ ReflTransGen (Link next) row x := by
  induction n generalizing row with
  | zero => omega
  | succ n ih =>
      -- the rank goes up along a link, so the fuel reaches
      have hbelow : ∀ b ∈ next row, ∃ t, grow next n b = some t ∧
          ∀ x, x ∈ t.rows ↔ ReflTransGen (Link next) b x := by
        intro b hb
        have := h.up row b hb
        exact ih b (h.bound row b hb) (by omega)
      obtain ⟨ts, hts, hmem⟩ := mapM_some fun b hb => (hbelow b hb).imp fun _ ht => ht.1
      refine ⟨.node row ts, by rw [grow, hts]; rfl, ?_⟩
      intro x
      rw [RoseTree.rows, List.mem_cons, mem_forestRows]
      constructor
      · rintro (rfl | ⟨t, ht, hx⟩)
        · exact .refl
        · obtain ⟨b, hb, hbt⟩ := (hmem t).mp ht
          obtain ⟨t', ht', hrows⟩ := hbelow b hb
          rw [hbt] at ht'
          rw [Option.some.inj ht', hrows] at hx
          exact hx.head hb
      · intro hchain
        rcases ReflTransGen.cases_head hchain with rfl | ⟨b, hlink, hchain⟩
        · exact Or.inl rfl
        · obtain ⟨t, ht, hrows⟩ := hbelow b hlink
          exact Or.inr ⟨t, (hmem t).mpr ⟨b, hlink, ht⟩, (hrows x).mpr hchain⟩

/-! ### What a tree is made of -/

/-- The row of the node. -/
def RoseTree.row : RoseTree ρ → ρ
  | .node row _ => row

/-- The trees below the node. -/
def RoseTree.children : RoseTree ρ → List (RoseTree ρ)
  | .node _ children => children

/-- The node itself, or one somewhere below it. -/
inductive RoseTree.Part : RoseTree ρ → RoseTree ρ → Prop where
  | self (t : RoseTree ρ) : Part t t
  | under {s c : RoseTree ρ} {row : ρ} {children : List (RoseTree ρ)} (hc : c ∈ children)
      (h : Part s c) : Part s (.node row children)

theorem RoseTree.Part.row_mem {s t : RoseTree ρ} (h : s.Part t) : s.row ∈ t.rows := by
  induction h with
  | self =>
      cases s with
      | node row children => exact List.mem_cons_self ..
  | under hc _ ih => exact List.mem_cons_of_mem _ (mem_forestRows.mpr ⟨_, hc, ih⟩)

/-- A tree that was grown. -/
theorem grow_some {n : Nat} {row : ρ} {t : RoseTree ρ} (h : grow next n row = some t) :
    ∃ m ts, n = m + 1 ∧ (next row).mapM (grow next m) = some ts ∧ t = .node row ts := by
  cases n with
  | zero => cases h
  | succ m =>
      obtain ⟨ts, hts, rfl⟩ := Option.map_eq_some_iff.mp h
      exact ⟨m, ts, rfl, hts, rfl⟩

theorem grow_row {n : Nat} {row : ρ} {t : RoseTree ρ} (h : grow next n row = some t) :
    t.row = row := by
  obtain ⟨m, ts, -, -, rfl⟩ := grow_some h
  rfl

/-- The trees of a list of rows, each from its row. -/
theorem mapM_grow_cons {n : Nat} {a : ρ} {rest : List ρ} {ts : List (RoseTree ρ)}
    (h : (a :: rest).mapM (grow next n) = some ts) :
    ∃ t ts', ts = t :: ts' ∧ grow next n a = some t ∧
      rest.mapM (grow next n) = some ts' := by
  rw [List.mapM_cons] at h
  cases ha : grow next n a with
  | none =>
      rw [ha] at h
      cases h
  | some t =>
      rw [ha] at h
      cases hrest : rest.mapM (grow next n) with
      | none =>
          rw [hrest] at h
          cases h
      | some ts' =>
          rw [hrest] at h
          cases h
          exact ⟨t, ts', rfl, rfl, rfl⟩

theorem mapM_grow_row {n : Nat} {l : List ρ} {ts : List (RoseTree ρ)}
    (h : l.mapM (grow next n) = some ts) : ts.map RoseTree.row = l := by
  induction l generalizing ts with
  | nil =>
      cases h
      rfl
  | cons a rest ih =>
      obtain ⟨t, ts', rfl, ha, hrest⟩ := mapM_grow_cons h
      rw [List.map_cons, grow_row ha, ih hrest]

theorem mapM_grow_mem {n : Nat} {l : List ρ} {ts : List (RoseTree ρ)}
    (h : l.mapM (grow next n) = some ts) {t : RoseTree ρ} (ht : t ∈ ts) :
    ∃ a ∈ l, grow next n a = some t := by
  induction l generalizing ts with
  | nil =>
      cases h
      cases ht
  | cons a rest ih =>
      obtain ⟨t', ts', rfl, ha, hrest⟩ := mapM_grow_cons h
      rcases List.mem_cons.mp ht with rfl | ht
      · exact ⟨a, List.mem_cons_self .., ha⟩
      · obtain ⟨b, hb, hbt⟩ := ih hrest ht
        exact ⟨b, List.mem_cons_of_mem _ hb, hbt⟩

/-- The children of every node are what the links name, in their order. -/
theorem grow_children {s t : RoseTree ρ} (hs : s.Part t) {n : Nat} {row : ρ}
    (h : grow next n row = some t) : s.children.map RoseTree.row = next s.row := by
  induction hs generalizing n row with
  | self =>
      obtain ⟨m, ts, -, hts, rfl⟩ := grow_some h
      exact mapM_grow_row hts
  | under hc _ ih =>
      obtain ⟨m, ts, -, hts, heq⟩ := grow_some h
      cases heq
      obtain ⟨a, -, ha⟩ := mapM_grow_mem hts hc
      exact ih ha

theorem grow_sound {n : Nat} {row x : ρ} {t : RoseTree ρ} (h : grow next n row = some t)
    (hx : x ∈ t.rows) : ReflTransGen (Link next) row x := by
  induction n generalizing row t with
  | zero => cases h
  | succ n ih =>
      obtain ⟨m, ts, hm, hts, rfl⟩ := grow_some h
      cases hm
      rw [RoseTree.rows, List.mem_cons, mem_forestRows] at hx
      rcases hx with rfl | ⟨c, hc, hx⟩
      · exact .refl
      · obtain ⟨a, ha, hac⟩ := mapM_grow_mem hts hc
        exact (ih hac hx).head ha

/-- Of two rows above a third, one is above the other. -/
theorem OneParent.comparable {S : ρ → Prop} (h : OneParent next S) {a b x : ρ} (ha : S a)
    (hb : S b) (hax : ReflTransGen (Link next) a x) (hbx : ReflTransGen (Link next) b x) :
    ReflTransGen (Link next) a b ∨ ReflTransGen (Link next) b a := by
  induction hax with
  | refl => exact Or.inr hbx
  | tail hay hyx ih =>
      rcases ReflTransGen.cases_tail hbx with rfl | ⟨z, hbz, hzx⟩
      · exact Or.inl (hay.tail hyx)
      · rw [h.unique _ _ _ (h.reach hb hbz) (h.reach ha hay) hzx hyx] at hbz
        exact ih hbz

/-- **No row comes twice in a tree.**  Where every row has one predecessor at most and
    none is below itself. -/
theorem grow_nodup {S : ρ → Prop} (h : OneParent next S)
    (hacyclic : ∀ a, S a → ¬ TransGen (Link next) a a) {n : Nat} {row : ρ}
    {t : RoseTree ρ} (hrow : S row) (ht : grow next n row = some t) : t.rows.Nodup := by
  induction n generalizing row t with
  | zero => cases ht
  | succ n ih =>
      obtain ⟨m, ts, hm, hts, rfl⟩ := grow_some ht
      cases hm
      -- no row that hangs on `row` is below another one
      have hanti : ∀ a ∈ next row, ∀ b ∈ next row, ¬ TransGen (Link next) a b := by
        intro a ha b hb hab
        obtain ⟨e, hae, heb⟩ := TransGen.tail'_iff.mp hab
        rw [h.unique e row b (h.reach (h.closed row hrow a ha) hae) hrow heb hb] at hae
        exact hacyclic row hrow (TransGen.head' ha hae)
      have hforest : ∀ (l : List ρ) (us : List (RoseTree ρ)), l.Nodup →
          (∀ a ∈ l, a ∈ next row) → l.mapM (grow next n) = some us →
          (forestRows us).Nodup := by
        intro l
        induction l with
        | nil =>
            intro us _ _ hus
            cases hus
            exact List.nodup_nil
        | cons a rest ihl =>
            intro us hnodup hmem hus
            obtain ⟨u, us', rfl, ha, hrest⟩ := mapM_grow_cons hus
            obtain ⟨hnot, hnodup'⟩ := List.nodup_cons.mp hnodup
            have hrow_a := hmem a (List.mem_cons_self ..)
            have hSa := h.closed row hrow a hrow_a
            rw [forestRows, List.nodup_append]
            refine ⟨ih hSa ha, ihl us' hnodup'
              (fun b hb => hmem b (List.mem_cons_of_mem _ hb)) hrest, ?_⟩
            rintro x hx y hy rfl
            obtain ⟨v, hv, hxv⟩ := mem_forestRows.mp hy
            obtain ⟨b, hb, hbv⟩ := mapM_grow_mem hrest hv
            have hrow_b := hmem b (List.mem_cons_of_mem _ hb)
            have hne : a ≠ b := fun heq => hnot (heq ▸ hb)
            rcases h.comparable hSa (h.closed row hrow b hrow_b) (grow_sound ha hx)
              (grow_sound hbv hxv) with hab | hba
            · rcases reflTransGen_iff_eq_or_transGen.mp hab with heq | hab
              · exact hne heq.symm
              · exact hanti a hrow_a b hrow_b hab
            · rcases reflTransGen_iff_eq_or_transGen.mp hba with heq | hba
              · exact hne heq
              · exact hanti b hrow_b a hrow_a hba
      rw [RoseTree.rows, List.nodup_cons]
      refine ⟨?_, hforest _ ts (h.nodup row hrow) (fun a ha => ha) hts⟩
      intro hself
      obtain ⟨u, hu, hxu⟩ := mem_forestRows.mp hself
      obtain ⟨a, ha, hau⟩ := mapM_grow_mem hts hu
      exact hacyclic row hrow (TransGen.head' ha (grow_sound hau hxu))

/-- Where no row of a list is below itself, the rows have ranks that go up with the
    links: the number of rows above. -/
theorem exists_rank {r : ρ → ρ → Prop} (l : List ρ) (hmem : ∀ a b, r a b → a ∈ l)
    (hacyclic : ∀ a, ¬ TransGen r a a) :
    ∃ rank : ρ → Nat, ∀ a b, r a b → rank a < rank b := by
  classical
  refine ⟨fun x => (l.toFinset.filter fun a => TransGen r a x).card, ?_⟩
  intro a b hab
  refine Finset.card_lt_card ((Finset.ssubset_iff_of_subset ?_).mpr ⟨a, ?_, ?_⟩)
  · intro c hc
    rw [Finset.mem_filter] at hc ⊢
    exact ⟨hc.1, hc.2.tail hab⟩
  · rw [Finset.mem_filter, List.mem_toFinset]
    exact ⟨hmem a b hab, .single hab⟩
  · rw [Finset.mem_filter]
    exact fun h => hacyclic a h.2

end RecursiveQuery
