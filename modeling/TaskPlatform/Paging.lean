import Mathlib.Data.List.Basic
import Mathlib.Tactic.Common

/-! # Pages of a list

    Pages are counted from one.  As many pages as the list needs, one after the other, are
    the list (`flatMap_pageAt`); all but the last are full, and what comes after is
    empty. -/

namespace Paging

variable {α : Type} {limit : Nat} {l : List α}

/-- `skip (n - 1) * limit`, `take limit`. -/
def pageAt (limit : Nat) (l : List α) (n : Nat) : List α :=
  (l.drop ((n - 1) * limit)).take limit

/-- `ceil (total / limit)`. -/
def pageCount (limit total : Nat) : Nat := (total + limit - 1) / limit

theorem le_pageCount_mul (hlimit : 0 < limit) (total : Nat) :
    total ≤ pageCount limit total * limit := by
  have hdiv := Nat.div_add_mod (total + limit - 1) limit
  have hmod := Nat.mod_lt (total + limit - 1) hlimit
  rw [Nat.mul_comm] at hdiv
  unfold pageCount
  omega

theorem mul_lt_of_lt_pageCount {n total : Nat} (h : n < pageCount limit total) :
    n * limit < total := by
  have hle : (n + 1) * limit ≤ total + limit - 1 :=
    Nat.le_trans (Nat.mul_le_mul_right limit h) (Nat.div_mul_le_self _ _)
  rw [Nat.succ_mul] at hle
  rcases Nat.eq_zero_or_pos limit with rfl | hlimit
  · rw [pageCount, Nat.div_zero] at h
    exact absurd h (Nat.not_lt_zero n)
  · omega

/-- The first pages are the beginning of the list. -/
theorem flatMap_pageAt_eq_take (limit : Nat) (l : List α) (count : Nat) :
    (List.range count).flatMap (fun i => pageAt limit l (i + 1))
      = l.take (count * limit) := by
  induction count with
  | zero => rw [Nat.zero_mul, List.take_zero, List.range_zero, List.flatMap_nil]
  | succ count ih =>
      rw [List.range_succ, List.flatMap_append, ih, List.flatMap_singleton, Nat.succ_mul,
        List.take_add, pageAt, Nat.add_sub_cancel]

/-- **All pages.**  One after the other they are the list. -/
theorem flatMap_pageAt (hlimit : 0 < limit) (l : List α) :
    (List.range (pageCount limit l.length)).flatMap (fun i => pageAt limit l (i + 1)) = l := by
  rw [flatMap_pageAt_eq_take]
  exact List.take_of_length_le (le_pageCount_mul hlimit l.length)

/-- There is nothing behind the last page. -/
theorem pageAt_eq_nil (hlimit : 0 < limit) {n : Nat} (h : pageCount limit l.length < n) :
    pageAt limit l n = [] := by
  have hle : l.length ≤ (n - 1) * limit :=
    Nat.le_trans (le_pageCount_mul hlimit l.length) (Nat.mul_le_mul_right limit (by omega))
  rw [pageAt, List.drop_of_length_le hle, List.take_nil]

/-- The pages before the last are full. -/
theorem length_pageAt {n : Nat} (hn : 1 ≤ n) (h : n < pageCount limit l.length) :
    (pageAt limit l n).length = limit := by
  have hlt := mul_lt_of_lt_pageCount h
  have hsplit : n * limit = (n - 1) * limit + limit := by
    rw [← Nat.succ_mul, Nat.succ_eq_add_one, Nat.sub_add_cancel hn]
  rw [pageAt, List.length_take, List.length_drop]
  omega

end Paging
