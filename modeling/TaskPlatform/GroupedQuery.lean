import Mathlib.Algebra.BigOperators.Group.List.Lemmas
import Mathlib.Algebra.GroupWithZero.Nat
import Mathlib.Data.List.Dedup
import Mathlib.Tactic.Common

/-! # Queries that group and count

    `GROUP BY` with `COUNT(*)`: a group for every key that occurs, with the number of its
    rows.  The groups come back in any order, so what is said of them is said of every
    permutation. -/

namespace GroupedQuery

variable {α β κ : Type}

/-- A group with the number of its rows. -/
structure GroupCount (κ : Type) where
  key : κ
  count : Nat
  deriving DecidableEq, Repr

section Groups

variable [DecidableEq κ]

/-- `SELECT key, COUNT(*) FROM rows GROUP BY key`. -/
def groupCounts (key : α → κ) (rows : List α) : List (GroupCount κ) :=
  (rows.map key).dedup.map fun k => ⟨k, (rows.map key).count k⟩

/-- The counts make up the table. -/
theorem sum_groupCounts (key : α → κ) (rows : List α) :
    ((groupCounts key rows).map GroupCount.count).sum = rows.length := by
  rw [groupCounts, List.map_map]
  show ((rows.map key).dedup.map fun k => (rows.map key).count k).sum = _
  rw [List.sum_map_count_dedup_eq_length, List.length_map]

theorem sum_of_perm {key : α → κ} {rows : List α} {groups : List (GroupCount κ)}
    (h : groups.Perm (groupCounts key rows)) :
    (groups.map GroupCount.count).sum = rows.length := by
  rw [(h.map GroupCount.count).sum_eq, sum_groupCounts]

theorem count_le_length {key : α → κ} {rows : List α} {g : GroupCount κ}
    (h : g ∈ groupCounts key rows) : g.count ≤ rows.length := by
  obtain ⟨k, -, rfl⟩ := List.mem_map.mp h
  exact List.count_le_length.trans (Nat.le_of_eq (List.length_map key))

theorem count_key_eq (key : α → κ) (rows : List α) (k : κ) :
    (rows.map key).count k = (rows.filter fun r => key r = k).length := by
  induction rows with
  | nil => rfl
  | cons r rest ih =>
      rw [List.map_cons, List.count_cons, ih, List.filter_cons]
      by_cases hk : key r = k
      · rw [if_pos (beq_iff_eq.mpr hk), if_pos (decide_eq_true hk), List.length_cons]
      · rw [if_neg (fun h => hk (beq_iff_eq.mp h)), if_neg (by simpa using hk), Nat.add_zero]

/-- A loop over the groups that keeps the count of one key, if it meets it. -/
def pick (k : κ) (groups : List (GroupCount κ)) : Nat :=
  groups.foldl (fun found g => if g.key = k then g.count else found) 0

theorem foldl_pick_of_absent {k : κ} {groups : List (GroupCount κ)}
    (h : ∀ g ∈ groups, g.key ≠ k) (found : Nat) :
    groups.foldl (fun found g => if g.key = k then g.count else found) found = found := by
  induction groups generalizing found with
  | nil => rfl
  | cons g rest ih =>
      rw [List.foldl_cons, if_neg (h g (List.mem_cons_self ..))]
      exact ih (fun g' hg' => h g' (List.mem_cons_of_mem _ hg')) found

/-- Keys are unique, so there is one count to meet. -/
theorem foldl_pick_of_mem {groups : List (GroupCount κ)}
    (hkeys : (groups.map GroupCount.key).Nodup) {g : GroupCount κ} (hg : g ∈ groups)
    (found : Nat) :
    groups.foldl (fun found g' => if g'.key = g.key then g'.count else found) found
      = g.count := by
  induction groups generalizing found with
  | nil => exact absurd hg List.not_mem_nil
  | cons first rest ih =>
      rw [List.map_cons, List.nodup_cons] at hkeys
      rw [List.foldl_cons]
      rcases List.mem_cons.mp hg with rfl | hrest
      · rw [if_pos rfl]
        refine foldl_pick_of_absent ?_ _
        intro g' hg' hsame
        exact hkeys.1 (hsame ▸ List.mem_map_of_mem hg')
      · exact ih hkeys.2 hrest _

theorem keys_nodup (key : α → κ) (rows : List α) :
    ((groupCounts key rows).map GroupCount.key).Nodup := by
  have hkeys : (groupCounts key rows).map GroupCount.key = (rows.map key).dedup := by
    rw [groupCounts, List.map_map]
    exact List.map_id _
  rw [hkeys]
  exact List.nodup_dedup _

/-- **One group.**  What the loop keeps is the number of rows with the key, and nothing if
    there is none. -/
theorem pick_of_perm {key : α → κ} {rows : List α} {groups : List (GroupCount κ)}
    (h : groups.Perm (groupCounts key rows)) (k : κ) :
    pick k groups = (rows.filter fun r => key r = k).length := by
  have hkeys : (groups.map GroupCount.key).Nodup :=
    (h.map GroupCount.key).nodup_iff.mpr (keys_nodup key rows)
  rw [← count_key_eq]
  by_cases hk : k ∈ rows.map key
  · have hmem : (⟨k, (rows.map key).count k⟩ : GroupCount κ) ∈ groups :=
      h.mem_iff.mpr (List.mem_map.mpr ⟨k, List.mem_dedup.mpr hk, rfl⟩)
    exact foldl_pick_of_mem hkeys hmem 0
  · rw [List.count_eq_zero.mpr hk]
    refine foldl_pick_of_absent ?_ 0
    intro g hg hgk
    obtain ⟨k', hk', rfl⟩ := List.mem_map.mp (h.mem_iff.mp hg)
    exact hk (hgk ▸ List.mem_dedup.mp hk')

end Groups

/-! ## Conditions -/

/-- A row that meets at most one of three conditions is counted once at most. -/
theorem length_filters_le {p q r : α → Bool} {rows : List α}
    (h : ∀ a ∈ rows, (p a).toNat + (q a).toNat + (r a).toNat ≤ 1) :
    (rows.filter p).length + (rows.filter q).length + (rows.filter r).length
      ≤ rows.length := by
  have hcons : ∀ (f : α → Bool) (a : α) (rest : List α),
      ((a :: rest).filter f).length = (f a).toNat + (rest.filter f).length := by
    intro f a rest
    cases hf : f a with
    | true => rw [List.filter_cons_of_pos hf, List.length_cons, Bool.toNat_true, Nat.add_comm]
    | false =>
        rw [List.filter_cons_of_neg (by rw [hf]; exact Bool.false_ne_true), Bool.toNat_false,
          Nat.zero_add]
  induction rows with
  | nil => exact Nat.le_refl 0
  | cons a rest ih =>
      have hrest := ih fun b hb => h b (List.mem_cons_of_mem _ hb)
      have hfirst := h a (List.mem_cons_self ..)
      rw [hcons, hcons, hcons, List.length_cons]
      omega

/-! ## Joins -/

/-- `INNER JOIN`. -/
def innerJoin (on : α → β → Bool) (rows : List α) (others : List β) : List (α × β) :=
  rows.flatMap fun a => (others.filter (on a)).map fun b => (a, b)

/-- Where a row has a partner exactly if it passes, and no second one, the join has as many
    rows as pass. -/
theorem length_innerJoin {on : α → β → Bool} {rows : List α} {others : List β}
    {p : α → Bool} (h : ∀ a ∈ rows, (others.filter (on a)).length = if p a then 1 else 0) :
    (innerJoin on rows others).length = (rows.filter p).length := by
  unfold innerJoin
  induction rows with
  | nil => rfl
  | cons a rest ih =>
      rw [List.flatMap_cons, List.length_append, List.length_map,
        h a (List.mem_cons_self ..), ih fun b hb => h b (List.mem_cons_of_mem _ hb)]
      cases hp : p a with
      | true =>
          rw [if_pos rfl, List.filter_cons_of_pos hp, List.length_cons, Nat.add_comm]
      | false =>
          rw [if_neg Bool.false_ne_true, Nat.zero_add,
            List.filter_cons_of_neg (by rw [hp]; exact Bool.false_ne_true)]

end GroupedQuery
