import Mathlib.Data.List.Nodup

/-! # Maps whose values are sets

    A map from keys to sets of values, both in the order of insertion, that drops a key
    with the last value of its set.  Its `pairs` are the keys with the values of their
    sets: each once, one more after `add` and one less after `remove`. -/

namespace SetMap

variable {κ α : Type}

/-- Every value with its key. -/
def pairsOf (l : List (κ × List α)) : List (κ × α) :=
  l.flatMap fun p => p.2.map fun v => (p.1, v)

/-- A pair is a key with a member of one of its sets. -/
theorem mem_pairsOf {l : List (κ × List α)} {x : κ × α} :
    x ∈ pairsOf l ↔ ∃ vs, (x.1, vs) ∈ l ∧ x.2 ∈ vs := by
  unfold pairsOf
  rw [List.mem_flatMap]
  constructor
  · rintro ⟨⟨k, vs⟩, hp, hx⟩
    obtain ⟨v, hv, rfl⟩ := List.mem_map.mp hx
    exact ⟨vs, hp, hv⟩
  · rintro ⟨vs, hp, hv⟩
    exact ⟨(x.1, vs), hp, List.mem_map.mpr ⟨x.2, hv, rfl⟩⟩

/-- The pairs of the first key, or of the rest. -/
theorem mem_pairsOf_cons {k : κ} {vs : List α} {l : List (κ × List α)} {x : κ × α} :
    x ∈ pairsOf ((k, vs) :: l) ↔ (x.1 = k ∧ x.2 ∈ vs) ∨ x ∈ pairsOf l := by
  rw [mem_pairsOf, mem_pairsOf]
  constructor
  · rintro ⟨us, hmem, hx⟩
    rcases List.mem_cons.mp hmem with h | h
    · cases h
      exact Or.inl ⟨rfl, hx⟩
    · exact Or.inr ⟨us, h, hx⟩
  · rintro (⟨rfl, hx⟩ | ⟨us, hmem, hx⟩)
    · exact ⟨vs, List.mem_cons_self .., hx⟩
    · exact ⟨us, List.mem_cons_of_mem _ hmem, hx⟩

/-- The key of a pair is a key. -/
theorem key_of_mem_pairsOf {l : List (κ × List α)} {x : κ × α} (h : x ∈ pairsOf l) :
    x.1 ∈ l.map Prod.fst := by
  obtain ⟨vs, hmem, -⟩ := mem_pairsOf.mp h
  exact List.mem_map.mpr ⟨(x.1, vs), hmem, rfl⟩

/-- Each key once, and each value once in its set. -/
structure WellFormed (l : List (κ × List α)) : Prop where
  keys : (l.map Prod.fst).Nodup
  sets : ∀ p ∈ l, p.2.Nodup

/-- The rest of a well-formed list is one. -/
theorem WellFormed.tail {p : κ × List α} {l : List (κ × List α)}
    (h : WellFormed (p :: l)) : WellFormed l where
  keys := (List.nodup_cons.mp h.keys).2
  sets := fun q hq => h.sets q (List.mem_cons_of_mem _ hq)

/-- The first key does not come again. -/
theorem WellFormed.head_fresh {p : κ × List α} {l : List (κ × List α)}
    (h : WellFormed (p :: l)) : p.1 ∉ l.map Prod.fst := (List.nodup_cons.mp h.keys).1

/-- A new key may come first. -/
theorem WellFormed.cons {p : κ × List α} {l : List (κ × List α)} (h : WellFormed l)
    (hkey : p.1 ∉ l.map Prod.fst) (hset : p.2.Nodup) : WellFormed (p :: l) where
  keys := List.nodup_cons.mpr ⟨hkey, h.keys⟩
  sets := by
    intro q hq
    rcases List.mem_cons.mp hq with rfl | hq
    · exact hset
    · exact h.sets q hq

/-- No pair comes twice. -/
theorem WellFormed.pairs_nodup {l : List (κ × List α)} (h : WellFormed l) :
    (pairsOf l).Nodup := by
  induction l with
  | nil => exact List.nodup_nil
  | cons p l ih =>
      show (p.2.map (fun v => (p.1, v)) ++ pairsOf l).Nodup
      refine List.nodup_append.mpr ⟨?_, ih h.tail, ?_⟩
      · refine List.Nodup.map ?_ (h.sets p (List.mem_cons_self ..))
        intro v v' hv
        exact (Prod.mk.inj hv).2
      · intro x hx y hy hxy
        obtain ⟨v, -, rfl⟩ := List.mem_map.mp hx
        exact h.head_fresh (key_of_mem_pairsOf (hxy ▸ hy))

section Changes

variable [DecidableEq κ] [DecidableEq α]

/-- A value more in the set of the key. -/
def addTo (k : κ) (v : α) : List (κ × List α) → List (κ × List α)
  | [] => [(k, [v])]
  | (k', vs) :: rest =>
      if k' = k then (k', if v ∈ vs then vs else vs ++ [v]) :: rest
      else (k', vs) :: addTo k v rest

/-- The value out of the set of the key, and the key with it if the set is empty now. -/
def removeFrom (k : κ) (v : α) : List (κ × List α) → List (κ × List α)
  | [] => []
  | (k', vs) :: rest =>
      if k' = k then
        if (vs.erase v).isEmpty then rest else (k', vs.erase v) :: rest
      else (k', vs) :: removeFrom k v rest

/-- Adding makes one pair more. -/
theorem mem_pairsOf_addTo {k : κ} {v : α} {l : List (κ × List α)} {x : κ × α} :
    x ∈ pairsOf (addTo k v l) ↔ x = (k, v) ∨ x ∈ pairsOf l := by
  induction l with
  | nil =>
      show x ∈ [(k, v)] ↔ _
      rw [List.mem_singleton]
      exact ⟨Or.inl, fun h => h.resolve_right (List.not_mem_nil)⟩
  | cons p rest ih =>
      obtain ⟨k', vs⟩ := p
      unfold addTo
      by_cases hk : k' = k
      · rw [if_pos hk, mem_pairsOf_cons, mem_pairsOf_cons, hk, Prod.ext_iff]
        by_cases hv : v ∈ vs
        · rw [if_pos hv]
          constructor
          · exact Or.inr
          · rintro (⟨hx, hxv⟩ | h)
            · exact Or.inl ⟨hx, hxv ▸ hv⟩
            · exact h
        · rw [if_neg hv, List.mem_append, List.mem_singleton]
          constructor
          · rintro (⟨hx, hxv | hxv⟩ | h)
            · exact Or.inr (Or.inl ⟨hx, hxv⟩)
            · exact Or.inl ⟨hx, hxv⟩
            · exact Or.inr (Or.inr h)
          · rintro (⟨hx, hxv⟩ | ⟨hx, hxv⟩ | h)
            · exact Or.inl ⟨hx, Or.inr hxv⟩
            · exact Or.inl ⟨hx, Or.inl hxv⟩
            · exact Or.inr h
      · rw [if_neg hk, mem_pairsOf_cons, mem_pairsOf_cons, ih, or_left_comm]

/-- Adding brings no other key in. -/
theorem keys_addTo {k : κ} {v : α} {l : List (κ × List α)} {k' : κ}
    (h : k' ∈ (addTo k v l).map Prod.fst) : k' = k ∨ k' ∈ l.map Prod.fst := by
  induction l with
  | nil => exact Or.inl (List.mem_singleton.mp h)
  | cons p rest ih =>
      unfold addTo at h
      by_cases hk : p.1 = k
      · rw [if_pos hk] at h
        exact Or.inr h
      · rw [if_neg hk] at h
        rcases List.mem_cons.mp h with h | h
        · exact Or.inr (h ▸ List.mem_cons_self ..)
        · exact (ih h).imp_right (List.mem_cons_of_mem _)

/-- Adding keeps the form: a value that is there is not added again. -/
theorem WellFormed.addTo {l : List (κ × List α)} (h : WellFormed l) (k : κ) (v : α) :
    WellFormed (addTo k v l) := by
  induction l with
  | nil =>
      refine h.cons (p := (k, [v])) List.not_mem_nil ?_
      exact List.nodup_singleton v
  | cons p rest ih =>
      unfold SetMap.addTo
      by_cases hk : p.1 = k
      · rw [if_pos hk]
        refine h.tail.cons h.head_fresh ?_
        have hset := h.sets p (List.mem_cons_self ..)
        dsimp only
        by_cases hv : v ∈ p.2
        · rw [if_pos hv]
          exact hset
        · rw [if_neg hv]
          refine List.nodup_append.mpr ⟨hset, List.nodup_singleton v, ?_⟩
          intro a ha b hb hab
          rw [List.mem_singleton] at hb
          exact hv (hb ▸ hab ▸ ha)
      · rw [if_neg hk]
        refine (ih h.tail).cons ?_ (h.sets p (List.mem_cons_self ..))
        intro hmem
        rcases keys_addTo hmem with hkey | hkey
        · exact hk hkey
        · exact h.head_fresh hkey

/-- Removing brings no key in. -/
theorem keys_removeFrom {k : κ} {v : α} {l : List (κ × List α)} {k' : κ}
    (h : k' ∈ (removeFrom k v l).map Prod.fst) : k' ∈ l.map Prod.fst := by
  induction l with
  | nil => exact h
  | cons p rest ih =>
      unfold removeFrom at h
      by_cases hk : p.1 = k
      · rw [if_pos hk] at h
        by_cases hempty : (p.2.erase v).isEmpty = true
        · rw [if_pos hempty] at h
          exact List.mem_cons_of_mem _ h
        · rw [if_neg hempty] at h
          exact h
      · rw [if_neg hk] at h
        rcases List.mem_cons.mp h with h | h
        · exact h ▸ List.mem_cons_self ..
        · exact List.mem_cons_of_mem _ (ih h)

/-- Removing keeps the form. -/
theorem WellFormed.removeFrom {l : List (κ × List α)} (h : WellFormed l) (k : κ) (v : α) :
    WellFormed (removeFrom k v l) := by
  induction l with
  | nil => exact h
  | cons p rest ih =>
      have hset := h.sets p (List.mem_cons_self ..)
      unfold SetMap.removeFrom
      by_cases hk : p.1 = k
      · rw [if_pos hk]
        by_cases hempty : (p.2.erase v).isEmpty = true
        · rw [if_pos hempty]
          exact h.tail
        · rw [if_neg hempty]
          exact h.tail.cons h.head_fresh (hset.erase v)
      · rw [if_neg hk]
        exact (ih h.tail).cons (fun hmem => h.head_fresh (keys_removeFrom hmem)) hset

/-- Removing takes the one pair out. -/
theorem WellFormed.mem_pairsOf_removeFrom {l : List (κ × List α)} (h : WellFormed l)
    {k : κ} {v : α} {x : κ × α} :
    x ∈ pairsOf (SetMap.removeFrom k v l) ↔ x ≠ (k, v) ∧ x ∈ pairsOf l := by
  induction l with
  | nil =>
      constructor
      · exact fun hx => absurd hx List.not_mem_nil
      · exact fun hx => hx.2
  | cons p rest ih =>
      obtain ⟨k', vs⟩ := p
      have hset : vs.Nodup := h.sets (k', vs) (List.mem_cons_self ..)
      unfold SetMap.removeFrom
      by_cases hk : k' = k
      · subst hk
        rw [if_pos rfl, mem_pairsOf_cons]
        -- the other sets have other keys
        have hother : x ∈ pairsOf rest → x ≠ (k', v) := by
          rintro hx rfl
          exact h.head_fresh (key_of_mem_pairsOf hx)
        have hsplit : x ∈ pairsOf ((k', vs.erase v) :: rest) ↔
            x ≠ (k', v) ∧ (x.1 = k' ∧ x.2 ∈ vs ∨ x ∈ pairsOf rest) := by
          rw [mem_pairsOf_cons, hset.mem_erase_iff]
          constructor
          · rintro (⟨hx, hne, hmem⟩ | hx)
            · exact ⟨fun hsame => hne (congrArg Prod.snd hsame), Or.inl ⟨hx, hmem⟩⟩
            · exact ⟨hother hx, Or.inr hx⟩
          · rintro ⟨hne, ⟨hx, hmem⟩ | hx⟩
            · exact Or.inl ⟨hx, fun hsame => hne (Prod.ext hx hsame), hmem⟩
            · exact Or.inr hx
        by_cases hempty : (vs.erase v).isEmpty = true
        · rw [if_pos hempty, ← hsplit, List.isEmpty_iff.mp hempty]
          rfl
        · rw [if_neg hempty, hsplit]
      · rw [if_neg hk, mem_pairsOf_cons, mem_pairsOf_cons, ih h.tail]
        constructor
        · rintro (⟨hx, hmem⟩ | ⟨hne, hx⟩)
          · exact ⟨fun hsame => hk (hx.symm.trans (congrArg Prod.fst hsame)),
              Or.inl ⟨hx, hmem⟩⟩
          · exact ⟨hne, Or.inr hx⟩
        · rintro ⟨hne, hx | hx⟩
          · exact Or.inl hx
          · exact Or.inr ⟨hne, hx⟩

end Changes

end SetMap

/-- A map of sets. -/
structure SetMap (κ α : Type) where
  entries : List (κ × List α)
  wellFormed : SetMap.WellFormed entries

namespace SetMap

variable {κ α : Type}

/-- No key at all. -/
def empty : SetMap κ α where
  entries := []
  wellFormed := ⟨List.nodup_nil, fun _ h => absurd h List.not_mem_nil⟩

/-- Every value of the map with its key. -/
def pairs (m : SetMap κ α) : List (κ × α) := pairsOf m.entries

/-- No pair comes twice. -/
theorem pairs_nodup (m : SetMap κ α) : m.pairs.Nodup := m.wellFormed.pairs_nodup

variable [DecidableEq κ] [DecidableEq α]

/-- A value more in the set of the key. -/
def add (m : SetMap κ α) (k : κ) (v : α) : SetMap κ α where
  entries := addTo k v m.entries
  wellFormed := m.wellFormed.addTo k v

/-- The value out of the set of the key. -/
def remove (m : SetMap κ α) (k : κ) (v : α) : SetMap κ α where
  entries := removeFrom k v m.entries
  wellFormed := m.wellFormed.removeFrom k v

/-- Adding makes one pair more. -/
@[simp] theorem mem_pairs_add {m : SetMap κ α} {k : κ} {v : α} {x : κ × α} :
    x ∈ (m.add k v).pairs ↔ x = (k, v) ∨ x ∈ m.pairs := mem_pairsOf_addTo

/-- Removing takes the one pair out. -/
@[simp] theorem mem_pairs_remove {m : SetMap κ α} {k : κ} {v : α} {x : κ × α} :
    x ∈ (m.remove k v).pairs ↔ x ≠ (k, v) ∧ x ∈ m.pairs :=
  m.wellFormed.mem_pairsOf_removeFrom

end SetMap
