import Mathlib.Data.List.Nodup

/-! # Tables as lists of rows with a primary key

    A table is the list of its rows in insertion order; `key` reads the primary
    key of a row.  `replace` overwrites the row of a key in place, `upsert` is
    the usual save of a whole object (overwrite the row of that key, or add
    one), `pick` is a query whose order is not specified: any matching row may
    come back. -/

namespace RowTable

variable {ρ κ : Type} [DecidableEq κ] (key : ρ → κ)

/-- No two rows share a key. -/
def Unique (l : List ρ) : Prop := (l.map key).Nodup

instance (l : List ρ) : Decidable (Unique key l) :=
  inferInstanceAs (Decidable (l.map key).Nodup)

/-- The row of a key. -/
def lookup (k : κ) (l : List ρ) : Option ρ := l.find? (fun r => key r = k)

/-- Overwrite the row that has `o`'s key. -/
def replace (o : ρ) (l : List ρ) : List ρ :=
  l.map (fun r => if key r = key o then o else r)

/-- Overwrite the row that has `o`'s key, or add `o` if there is none. -/
def upsert (o : ρ) (l : List ρ) : List ρ :=
  if (lookup key (key o) l).isSome then replace key o l else l ++ [o]

variable {key}

/-- An insert is seen. -/
theorem append_singleton_ne {l : List ρ} {o : ρ} : l ++ [o] ≠ l := by
  rw [Ne, List.append_right_eq_self]
  exact List.cons_ne_nil o []

omit [DecidableEq κ] in
/-- A key has one row. -/
theorem Unique.eq_of_key {l : List ρ} (h : Unique key l) {a b : ρ} (ha : a ∈ l)
    (hb : b ∈ l) (hab : key a = key b) : a = b :=
  List.inj_on_of_nodup_map h ha hb hab

omit [DecidableEq κ] in
/-- Fewer rows share no key either. -/
theorem Unique.filter {l : List ρ} (h : Unique key l) (p : ρ → Bool) :
    Unique key (l.filter p) :=
  h.sublist (List.filter_sublist.map key)

/-- What is found is in the table, under its key. -/
theorem lookup_mem {k : κ} {l : List ρ} {r : ρ} (h : lookup key k l = some r) :
    r ∈ l ∧ key r = k :=
  ⟨List.mem_of_find?_eq_some h, by simpa using List.find?_some h⟩

/-- A row is found under its key. -/
theorem lookup_eq_some {k : κ} {l : List ρ} {r : ρ} (hl : Unique key l)
    (hr : r ∈ l) (hk : key r = k) : lookup key k l = some r := by
  cases h : lookup key k l with
  | none =>
      have := List.find?_eq_none.mp h r hr
      simp [hk] at this
  | some r' =>
      obtain ⟨hm, hk'⟩ := lookup_mem h
      rw [hl.eq_of_key hm hr (hk'.trans hk.symm)]

/-- Nothing is found where no row has the key. -/
theorem lookup_eq_none {k : κ} {l : List ρ} :
    lookup key k l = none ↔ ∀ r ∈ l, key r ≠ k := by
  simp [lookup, List.find?_eq_none]

/-- A key that the table lacks is found in a new row only. -/
theorem lookup_append_new {k : κ} {l : List ρ} {o : ρ}
    (h : lookup key k l = none) :
    lookup key k (l ++ [o]) = if key o = k then some o else none := by
  unfold lookup at h ⊢
  rw [List.find?_append, h]
  by_cases hk : key o = k <;> simp [hk]

/-- New rows hide no old one. -/
theorem lookup_append_some {k : κ} {l l' : List ρ} {r : ρ}
    (h : lookup key k l = some r) : lookup key k (l ++ l') = some r := by
  unfold lookup at h ⊢
  rw [List.find?_append, h]
  rfl

/-- The rows after an overwrite: `o` in its place, all others as they were. -/
theorem mem_replace {o r : ρ} {l : List ρ} :
    r ∈ replace key o l ↔
      (r = o ∧ ∃ r' ∈ l, key r' = key o) ∨ (r ∈ l ∧ key r ≠ key o) := by
  constructor
  · intro h
    obtain ⟨r', hm, heq⟩ := List.mem_map.mp h
    by_cases hk : key r' = key o
    · rw [if_pos hk] at heq
      exact Or.inl ⟨heq.symm, r', hm, hk⟩
    · rw [if_neg hk] at heq
      subst heq
      exact Or.inr ⟨hm, hk⟩
  · rintro (⟨rfl, r', hm, hk⟩ | ⟨hm, hk⟩)
    · exact List.mem_map.mpr ⟨r', hm, if_pos hk⟩
    · exact List.mem_map.mpr ⟨r, hm, if_neg hk⟩

/-- Overwriting moves no key. -/
@[simp] theorem map_key_replace (o : ρ) (l : List ρ) :
    (replace key o l).map key = l.map key := by
  unfold replace
  rw [List.map_map]
  refine List.map_congr_left ?_
  intro r _
  by_cases hk : key r = key o
  · simp [hk]
  · simp [hk]

/-- Overwriting keeps the keys apart. -/
theorem Unique.replace {l : List ρ} (h : Unique key l) (o : ρ) :
    Unique key (replace key o l) := by
  unfold Unique
  rw [map_key_replace]
  exact h

/-- A row with a new key keeps the keys apart. -/
theorem Unique.append {l : List ρ} (h : Unique key l) {o : ρ}
    (ho : lookup key (key o) l = none) : Unique key (l ++ [o]) := by
  unfold Unique
  rw [List.map_append, List.nodup_append]
  refine ⟨h, by simp, ?_⟩
  rintro k hk k' hk' rfl
  obtain ⟨r, hr, hrk⟩ := List.mem_map.mp hk
  have hko : k = key o := by simpa using hk'
  exact lookup_eq_none.mp ho r hr (hrk.trans hko)

/-- The overwritten row is found as it was written. -/
theorem lookup_replace_self {o r : ρ} {l : List ρ}
    (h : lookup key (key o) l = some r) : lookup key (key o) (replace key o l) = some o := by
  induction l with
  | nil => exact nomatch h
  | cons hd rest ih =>
      unfold lookup replace at *
      by_cases hk : key hd = key o
      · simp [hk]
      · rw [List.find?_cons_of_neg (by simpa using hk)] at h
        have hne : ¬ key hd = key o := hk
        simp only [List.map_cons, if_neg hne]
        rw [List.find?_cons_of_neg (by simpa using hk)]
        exact ih h

/-- The other keys find what they found. -/
theorem lookup_replace_ne {k : κ} {o : ρ} {l : List ρ} (h : k ≠ key o) :
    lookup key k (replace key o l) = lookup key k l := by
  induction l with
  | nil => rfl
  | cons hd rest ih =>
      unfold lookup replace at *
      by_cases hk : key hd = key o
      · have hne : ¬ key hd = k := by rw [hk]; exact fun h' => h h'.symm
        have hno : ¬ key o = k := fun h' => h h'.symm
        simp only [List.map_cons, if_pos hk]
        rw [List.find?_cons_of_neg (by simpa using hno),
          List.find?_cons_of_neg (by simpa using hne)]
        exact ih
      · simp only [List.map_cons, if_neg hk]
        by_cases hkk : key hd = k
        · rw [List.find?_cons_of_pos (by simpa using hkk),
            List.find?_cons_of_pos (by simpa using hkk)]
        · rw [List.find?_cons_of_neg (by simpa using hkk),
            List.find?_cons_of_neg (by simpa using hkk)]
          exact ih

/-- A query that does not ask for the row that is added. -/
theorem filter_append_ne {f : ρ → Bool} {o : ρ} (l : List ρ) (ho : f o = false) :
    (l ++ [o]).filter f = l.filter f := by
  rw [List.filter_append, List.filter_cons_of_neg (by simp [ho]), List.filter_nil,
    List.append_nil]

/-- A query that asks for neither the new row nor the rows it overwrites. -/
theorem filter_replace {f : ρ → Bool} {o : ρ} {l : List ρ} (ho : f o = false)
    (hl : ∀ r ∈ l, key r = key o → f r = false) :
    (replace key o l).filter f = l.filter f := by
  induction l with
  | nil => rfl
  | cons hd rest ih =>
      have hrest := ih fun r hr => hl r (List.mem_cons_of_mem _ hr)
      show ((if key hd = key o then o else hd) :: replace key o rest).filter f = _
      by_cases hk : key hd = key o
      · rw [if_pos hk, List.filter_cons_of_neg (by simp [ho]),
          List.filter_cons_of_neg (by simp [hl hd (List.mem_cons_self ..) hk])]
        exact hrest
      · rw [if_neg hk]
        cases hf : f hd with
        | true => rw [List.filter_cons_of_pos hf, List.filter_cons_of_pos hf, hrest]
        | false =>
            rw [List.filter_cons_of_neg (by simp [hf]),
              List.filter_cons_of_neg (by simp [hf]), hrest]

/-- A search that passes the row over before and after finds the same. -/
theorem find_replace {f : ρ → Bool} {o : ρ} {l : List ρ} (ho : f o = false)
    (hl : ∀ r ∈ l, key r = key o → f r = false) :
    (replace key o l).find? f = l.find? f := by
  rw [← List.head?_filter, ← List.head?_filter, filter_replace ho hl]

/-- Among the rows that are kept, the first match is still the first. -/
theorem find_filter {f p : ρ → Bool} {l : List ρ} {r : ρ} (h : l.find? f = some r)
    (hp : p r = true) : (l.filter p).find? f = some r := by
  induction l with
  | nil => cases h
  | cons hd rest ih =>
      cases hf : f hd with
      | true =>
          rw [List.find?_cons_of_pos hf] at h
          rw [Option.some.inj h, List.filter_cons_of_pos hp]
          exact List.find?_cons_of_pos (Option.some.inj h ▸ hf)
      | false =>
          rw [List.find?_cons_of_neg (by simp [hf])] at h
          cases hhd : p hd with
          | true =>
              rw [List.filter_cons_of_pos hhd, List.find?_cons_of_neg (by simp [hf])]
              exact ih h
          | false =>
              rw [List.filter_cons_of_neg (by simp [hhd])]
              exact ih h

/-- A row that is there is overwritten. -/
theorem upsert_of_some {o r : ρ} {l : List ρ} (h : lookup key (key o) l = some r) :
    upsert key o l = replace key o l := by
  simp [upsert, h]

/-- A row that is not there is added. -/
theorem upsert_of_none {o : ρ} {l : List ρ} (h : lookup key (key o) l = none) :
    upsert key o l = l ++ [o] := by
  simp [upsert, h]

/-- A saved object whose row is in the table overwrites it in place. -/
theorem upsert_of_mem {o r : ρ} {l : List ρ} (hr : r ∈ l) (ho : key o = key r) :
    upsert key o l = replace key o l := by
  cases h : lookup key (key o) l with
  | none => exact absurd ho.symm (lookup_eq_none.mp h r hr)
  | some r' => exact upsert_of_some h

/-- The rows of other keys are those that were there. -/
theorem mem_of_mem_upsert_ne {o r : ρ} {l : List ρ} (h : r ∈ upsert key o l)
    (hk : key r ≠ key o) : r ∈ l := by
  cases hl : lookup key (key o) l with
  | none =>
      rw [upsert_of_none hl] at h
      rcases List.mem_append.mp h with h | h
      · exact h
      · exact absurd (congrArg key (List.mem_singleton.mp h)) hk
  | some r' =>
      rw [upsert_of_some hl] at h
      rcases mem_replace.mp h with ⟨rfl, -⟩ | ⟨h, -⟩
      · exact absurd rfl hk
      · exact h

/-- A row is the object, or was there. -/
theorem eq_or_mem_of_mem_upsert {o r : ρ} {l : List ρ} (h : r ∈ upsert key o l) :
    r = o ∨ r ∈ l := by
  cases hl : lookup key (key o) l with
  | none =>
      rw [upsert_of_none hl] at h
      rcases List.mem_append.mp h with h | h
      · exact Or.inr h
      · exact Or.inl (List.mem_singleton.mp h)
  | some r' =>
      rw [upsert_of_some hl] at h
      rcases mem_replace.mp h with ⟨rfl, -⟩ | ⟨h, -⟩
      · exact Or.inl rfl
      · exact Or.inr h

/-- The saved row is in the table. -/
theorem mem_upsert_self (o : ρ) (l : List ρ) : o ∈ upsert key o l := by
  cases hl : lookup key (key o) l with
  | none =>
      rw [upsert_of_none hl]
      exact List.mem_append_right _ (List.mem_singleton.mpr rfl)
  | some r =>
      rw [upsert_of_some hl]
      exact mem_replace.mpr (Or.inl ⟨rfl, r, lookup_mem hl⟩)

/-- The rows of other keys stay. -/
theorem mem_upsert_of_ne {o r : ρ} {l : List ρ} (h : r ∈ l) (hk : key r ≠ key o) :
    r ∈ upsert key o l := by
  cases hl : lookup key (key o) l with
  | none =>
      rw [upsert_of_none hl]
      exact List.mem_append_left _ h
  | some r' =>
      rw [upsert_of_some hl]
      exact mem_replace.mpr (Or.inr ⟨h, hk⟩)

/-- A filter that passes the row over before and after gives the same. -/
theorem filter_upsert {f : ρ → Bool} {o : ρ} {l : List ρ} (ho : f o = false)
    (hl : ∀ r ∈ l, key r = key o → f r = false) :
    (upsert key o l).filter f = l.filter f := by
  cases h : lookup key (key o) l with
  | none =>
      rw [upsert_of_none h, filter_append_ne l ho]
  | some r => rw [upsert_of_some h, filter_replace ho hl]

/-- The saved row is found under its key. -/
theorem lookup_upsert_self (o : ρ) (l : List ρ) :
    lookup key (key o) (upsert key o l) = some o := by
  cases h : lookup key (key o) l with
  | none => rw [upsert_of_none h, lookup_append_new h, if_pos rfl]
  | some r => rw [upsert_of_some h, lookup_replace_self h]

/-- The other keys find what they found. -/
theorem lookup_upsert_ne {k : κ} {o : ρ} {l : List ρ} (hk : k ≠ key o) :
    lookup key k (upsert key o l) = lookup key k l := by
  cases h : lookup key (key o) l with
  | some r => rw [upsert_of_some h, lookup_replace_ne hk]
  | none =>
      rw [upsert_of_none h]
      cases hl : lookup key k l with
      | none => rw [lookup_append_new hl, if_neg hk.symm]
      | some r => exact lookup_append_some hl

/-- A bulk update that leaves the keys alone. -/
theorem lookup_map {f : ρ → ρ} (hf : ∀ r, key (f r) = key r) (k : κ) (l : List ρ) :
    lookup key k (l.map f) = (lookup key k l).map f := by
  unfold lookup
  rw [List.find?_map]
  congr 2
  funext r
  show decide (key (f r) = k) = decide (key r = k)
  rw [hf r]

/-- Saving keeps the keys apart. -/
theorem Unique.upsert {l : List ρ} (h : Unique key l) (o : ρ) :
    Unique key (upsert key o l) := by
  cases hl : lookup key (key o) l with
  | none => rw [upsert_of_none hl]; exact h.append hl
  | some r => rw [upsert_of_some hl]; exact h.replace o

/-! ## Queries without an order -/

/-- One of the rows, which one being left to `n`; `none` only if there is
    none. -/
def pick (n : Nat) (l : List ρ) : Option ρ := l[n % l.length]?

/-- What is picked is a row. -/
theorem pick_mem {n : Nat} {l : List ρ} {r : ρ} (h : pick n l = some r) : r ∈ l :=
  List.mem_of_getElem? h

/-- Only of no rows none is picked. -/
theorem pick_eq_none {n : Nat} {l : List ρ} : pick n l = none ↔ l = [] := by
  constructor
  · intro h
    cases l with
    | nil => rfl
    | cons hd rest =>
        have hlt : n % (hd :: rest).length < (hd :: rest).length :=
          Nat.mod_lt _ (Nat.succ_pos _)
        rw [pick, List.getElem?_eq_getElem hlt] at h
        exact nomatch h
  · rintro rfl
    rfl

/-- Every row can be the one that comes back. -/
theorem exists_pick {l : List ρ} {r : ρ} (h : r ∈ l) : ∃ n, pick n l = some r := by
  obtain ⟨n, hn, heq⟩ := List.mem_iff_getElem.mp h
  refine ⟨n, ?_⟩
  rw [pick, Nat.mod_eq_of_lt hn, List.getElem?_eq_getElem hn, heq]

end RowTable
