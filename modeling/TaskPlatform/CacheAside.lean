import Mathlib.Tactic.Common

/-! # Caches beside a store

    A reader looks under the key of its query, and where nothing is found it asks the
    store and puts the answer there.  A writer changes the store and takes keys out
    afterwards.  Entries may go at any time.

    Several queries may share a key.  Between a write and the end of its invalidations
    some keys are dirty; every other entry is what the store answers now to a query
    with this key. -/

namespace CacheAside

variable {Store Query Key Value : Type} (key : Query → Key)
  (answer : Store → Query → Option Value) (asked : Query → Prop)

/-- Every entry whose key is not dirty is an answer of the store, as it is now, to a
    query with this key. -/
def UpToDate (dirty : Key → Prop) (store : Store) (cache : Key → Option Value) : Prop :=
  ∀ k v, cache k = some v → ¬ dirty k →
    ∃ q, asked q ∧ key q = k ∧ answer store q = some v

/-- Nothing is found in the one cache that is not in the other. -/
def Within (cache' cache : Key → Option Value) : Prop :=
  ∀ k v, cache' k = some v → cache k = some v

variable {key answer asked} {dirty dirty' : Key → Prop} {store store' : Store}
  {cache cache' : Key → Option Value}

theorem Within.refl (cache : Key → Option Value) : Within cache cache := fun _ _ h => h

theorem upToDate_empty : UpToDate key answer asked dirty store fun _ => none := by
  intro k v h
  cases h

namespace UpToDate

/-- **Expiry.**  Entries that go do no harm, and neither do keys that become dirty. -/
theorem mono (h : UpToDate key answer asked dirty store cache) (hc : Within cache' cache)
    (hd : ∀ k, dirty k → dirty' k) : UpToDate key answer asked dirty' store cache' :=
  fun k v hv hk => h k v (hc k v hv) fun hk' => hk (hd k hk')

/-- **Hits.**  What is found under a clean key is the answer to some query with it. -/
theorem hit (h : UpToDate key answer asked dirty store cache) {k : Key} {v : Value}
    (hv : cache k = some v) (hk : ¬ dirty k) :
    ∃ q, asked q ∧ key q = k ∧ answer store q = some v := h k v hv hk

/-- **Invalidation.**  Keys that have been taken out are dirty no more. -/
theorem drop (h : UpToDate key answer asked dirty store cache) {gone : Key → Prop}
    (hc : Within cache' cache) (hgone : ∀ k, gone k → cache' k = none) :
    UpToDate key answer asked (fun k => dirty k ∧ ¬ gone k) store cache' := by
  intro k v hv hk
  refine h k v (hc k v hv) fun hd => hk ⟨hd, fun hg => ?_⟩
  rw [hgone k hg] at hv
  cases hv

/-- **Fills.**  An answer of the store may be put under the key of its query. -/
theorem fill (h : UpToDate key answer asked dirty store cache) {q : Query} {v : Value}
    (hq : asked q) (hv : answer store q = some v)
    (hc : ∀ k v', cache' k = some v' → cache k = some v' ∨ (k = key q ∧ v' = v)) :
    UpToDate key answer asked dirty store cache' := by
  intro k v' hv' hk
  rcases hc k v' hv' with hold | ⟨rfl, rfl⟩
  · exact h k v' hold hk
  · exact ⟨q, hq, rfl, hv⟩

/-- **Writes.**  What the store answered to queries whose keys are cached, it still
    answers, or their keys become dirty. -/
theorem write (h : UpToDate key answer asked dirty store cache) {affected : Key → Prop}
    (hc : Within cache' cache)
    (hw : ∀ q v, asked q → cache' (key q) = some v → answer store q = some v →
      affected (key q) ∨ answer store' q = some v) :
    UpToDate key answer asked (fun k => dirty k ∨ affected k) store' cache' := by
  intro k v hv hk
  obtain ⟨q, hq, rfl, hans⟩ := h k v (hc k v hv) fun hd => hk (Or.inl hd)
  rcases hw q v hq hv hans with ha | hans'
  · exact absurd (Or.inr ha) hk
  · exact ⟨q, hq, rfl, hans'⟩

end UpToDate

end CacheAside
