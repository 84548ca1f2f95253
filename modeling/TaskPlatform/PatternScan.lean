import TaskPlatform.EventRuns
import Mathlib.Logic.Function.Basic

/-! # Deleting what a scan finds

    A store of keys, and a loop that deletes the keys of a scan batch by batch while others
    use the store.  The scan reads ahead: its batches wait until the loop gets to them.  An
    error ends the loop, and the batches that wait are dropped.

    What a scan promises is only that a key is found which is there from its first reply to
    its last (`FullScan`).  With no key added meanwhile this is enough for the loop to leave
    no matching key behind (`FullScan.emptied`), and whatever happens it touches no other
    key (`play_scanStep_of_not_matching`). -/

namespace PatternScan

open EventRuns

variable {κ α : Type} [DecidableEq κ]

/-- The store, the batches that wait for the loop, and whether the loop is over because of
    an error. -/
structure Scan (κ α : Type) where
  store : κ → Option α
  waiting : List (List κ)
  stopped : Bool

/-- What may happen next. -/
inductive Event (κ α : Type) where
  /-- The scan comes back with some keys. -/
  | batch (keys : List κ)
  /-- The loop takes the batch that waits longest. -/
  | loop
  /-- The scan or a deletion fails. -/
  | error
  /-- Others write or delete a key, or it expires. -/
  | set (key : κ) (value : α)
  | del (key : κ)

/-- An event of others. -/
def Event.foreign : Event κ α → Bool
  | .set _ _ => true
  | .del _ => true
  | _ => false

/-- The keys are taken out. -/
def remove (keys : List κ) (store : κ → Option α) : κ → Option α :=
  fun k => if k ∈ keys then none else store k

/-- The body of the loop: a batch without keys is passed over. -/
def deleteBatch (keys : List κ) (store : κ → Option α) : κ → Option α :=
  if keys.length > 0 then remove keys store else store

/-- One event of the scan. -/
def scanStep (s : Scan κ α) : Event κ α → Scan κ α
  | .batch keys => if s.stopped then s else { s with waiting := s.waiting ++ [keys] }
  | .loop =>
      match s.waiting with
      | [] => s
      | keys :: rest => { s with store := deleteBatch keys s.store, waiting := rest }
  | .error => { s with waiting := [], stopped := true }
  | .set key value => { s with store := Function.update s.store key (some value) }
  | .del key => { s with store := Function.update s.store key none }

/-- An empty batch has nothing to delete, so passing over it makes no difference. -/
theorem deleteBatch_eq_remove (keys : List κ) (store : κ → Option α) :
    deleteBatch keys store = remove keys store := by
  cases keys with
  | nil =>
      funext k
      show store k = if k ∈ [] then none else store k
      rw [if_neg List.not_mem_nil]
  | cons key rest => rfl

theorem remove_of_mem {keys : List κ} {store : κ → Option α} {k : κ} (h : k ∈ keys) :
    remove keys store k = none := if_pos h

theorem remove_of_not_mem {keys : List κ} {store : κ → Option α} {k : κ} (h : k ∉ keys) :
    remove keys store k = store k := if_neg h

/-! ## Keys that do not match -/

/-- Every batch, those that wait included, holds matching keys only. -/
structure Matching (p : κ → Bool) (s : Scan κ α) (events : List (Event κ α)) : Prop where
  waiting : ∀ keys ∈ s.waiting, ∀ k ∈ keys, p k = true
  batches : ∀ keys, .batch keys ∈ events → ∀ k ∈ keys, p k = true

omit [DecidableEq κ] in
theorem Matching.of_idle {p : κ → Bool} {s : Scan κ α} {events : List (Event κ α)}
    (hs : s.waiting = []) (h : ∀ keys, .batch keys ∈ events → ∀ k ∈ keys, p k = true) :
    Matching p s events := by
  refine ⟨?_, h⟩
  rw [hs]
  exact fun keys hkeys => absurd hkeys List.not_mem_nil

theorem Matching.step {p : κ → Bool} {s : Scan κ α} {e : Event κ α}
    {rest : List (Event κ α)} (h : Matching p s (e :: rest)) :
    Matching p (scanStep s e) rest := by
  have hrest : ∀ keys, .batch keys ∈ rest → ∀ k ∈ keys, p k = true :=
    fun keys hkeys => h.batches keys (List.mem_cons_of_mem _ hkeys)
  refine ⟨?_, hrest⟩
  cases e with
  | batch keys =>
      simp only [scanStep]
      by_cases hstopped : s.stopped = true
      · rw [if_pos hstopped]
        exact h.waiting
      · rw [if_neg hstopped]
        intro keys' hkeys'
        rcases List.mem_append.mp hkeys' with hold | hnew
        · exact h.waiting keys' hold
        · rw [List.mem_singleton.mp hnew]
          exact h.batches keys (List.mem_cons_self ..)
  | loop =>
      have hwaiting := h.waiting
      simp only [scanStep]
      cases hw : s.waiting with
      | nil =>
          intro keys' hkeys'
          exact hwaiting keys' hkeys'
      | cons keys waiting =>
          intro keys' hkeys'
          rw [hw] at hwaiting
          exact hwaiting keys' (List.mem_cons_of_mem _ hkeys')
  | error => exact fun keys hkeys => absurd hkeys List.not_mem_nil
  | set key value => exact h.waiting
  | del key => exact h.waiting

/-- The scan's own events leave a key alone that does not match. -/
theorem scanStep_own {p : κ → Bool} {s : Scan κ α} {e : Event κ α}
    {rest : List (Event κ α)} (h : Matching p s (e :: rest)) {k : κ} (hk : p k = false)
    (hown : e.foreign = false) : (scanStep s e).store k = s.store k := by
  cases e with
  | batch keys =>
      simp only [scanStep]
      cases s.stopped <;> rfl
  | loop =>
      have hwaiting := h.waiting
      simp only [scanStep]
      cases hw : s.waiting with
      | nil => rfl
      | cons keys waiting =>
          show deleteBatch keys s.store k = s.store k
          rw [deleteBatch_eq_remove, remove_of_not_mem]
          intro hmem
          rw [hwaiting keys (hw ▸ List.mem_cons_self ..) k hmem] at hk
          cases hk
  | error => rfl
  | set key value => cases hown
  | del key => cases hown

/-- What others do to a key does not depend on the scan. -/
theorem scanStep_foreign {s s' : Scan κ α} {e : Event κ α} {k : κ}
    (he : e.foreign = true) (h : s.store k = s'.store k) :
    (scanStep s e).store k = (scanStep s' e).store k := by
  cases e with
  | batch keys => cases he
  | loop => cases he
  | error => cases he
  | set key value =>
      show Function.update s.store key (some value) k
        = Function.update s'.store key (some value) k
      by_cases hkey : k = key
      · rw [hkey, Function.update_self, Function.update_self]
      · rw [Function.update_of_ne hkey, Function.update_of_ne hkey, h]
  | del key =>
      show Function.update s.store key none k = Function.update s'.store key none k
      by_cases hkey : k = key
      · rw [hkey, Function.update_self, Function.update_self]
      · rw [Function.update_of_ne hkey, Function.update_of_ne hkey, h]

theorem play_scanStep_agree {p : κ → Bool} {events : List (Event κ α)} {s s' : Scan κ α}
    (h : Matching p s events) {k : κ} (hk : p k = false) (hs : s.store k = s'.store k) :
    (play scanStep s events).store k
      = (play scanStep s' (events.filter Event.foreign)).store k := by
  induction events generalizing s s' with
  | nil => exact hs
  | cons e rest ih =>
      cases he : e.foreign with
      | true =>
          rw [List.filter_cons_of_pos he]
          exact ih h.step (scanStep_foreign he hs)
      | false =>
          rw [List.filter_cons_of_neg (by rw [he]; exact Bool.false_ne_true)]
          exact ih h.step ((scanStep_own h hk he).trans hs)

/-- **Nothing else.**  A key that does not match is what the others alone make of it, also
    where the loop breaks off. -/
theorem play_scanStep_of_not_matching {p : κ → Bool} {s : Scan κ α}
    {events : List (Event κ α)} (h : Matching p s events) {k : κ} (hk : p k = false) :
    (play scanStep s events).store k
      = (play scanStep s (events.filter Event.foreign)).store k :=
  play_scanStep_agree h hk rfl

/-! ## Keys that match -/

/-- No key is added: what others write was there. -/
def AddsNone (s : Scan κ α) : Event κ α → Prop
  | .set key _ => s.store key ≠ none
  | _ => True

theorem scanStep_none {s : Scan κ α} {e : Event κ α} (he : AddsNone s e) {k : κ}
    (h : s.store k = none) : (scanStep s e).store k = none := by
  cases e with
  | batch keys =>
      simp only [scanStep]
      cases s.stopped <;> exact h
  | loop =>
      simp only [scanStep]
      cases s.waiting with
      | nil => exact h
      | cons keys waiting =>
          show deleteBatch keys s.store k = none
          rw [deleteBatch_eq_remove]
          by_cases hk : k ∈ keys
          · exact remove_of_mem hk
          · rw [remove_of_not_mem hk, h]
  | error => exact h
  | set key value =>
      have hne : k ≠ key := by
        rintro rfl
        exact he h
      show Function.update s.store key (some value) k = none
      rw [Function.update_of_ne hne, h]
  | del key =>
      show Function.update s.store key none k = none
      by_cases hk : k = key
      · rw [hk, Function.update_self]
      · rw [Function.update_of_ne hk, h]

/-- Once gone, a key stays away. -/
theorem play_scanStep_none {s : Scan κ α} {events : List (Event κ α)}
    (hadds : Throughout scanStep AddsNone s events) {k : κ} (h : s.store k = none) :
    (play scanStep s events).store k = none := by
  have hstep : ∀ (s : Scan κ α) (e : Event κ α), s.store k = none → AddsNone s e →
      (scanStep s e).store k = none := fun _ _ hs he => scanStep_none he hs
  exact hadds.play hstep h

/-- So a key that is there at the end was there all the time. -/
theorem always_of_final {s : Scan κ α} {events : List (Event κ α)}
    (hadds : Throughout scanStep AddsNone s events) {k : κ}
    (h : (play scanStep s events).store k ≠ none) :
    Always scanStep (fun s => s.store k ≠ none) s events := by
  rw [always_iff]
  rintro taken rest rfl hnone
  apply h
  rw [play_append]
  exact play_scanStep_none (throughout_append.mp hadds).2 hnone

/-- A batch with the key in it waits, or the key is gone, or the loop broke off. -/
def Doomed (k : κ) (s : Scan κ α) : Prop :=
  (∃ keys ∈ s.waiting, k ∈ keys) ∨ s.store k = none ∨ s.stopped = true

theorem Doomed.step {k : κ} {s : Scan κ α} {e : Event κ α} (h : Doomed k s)
    (he : AddsNone s e) : Doomed k (scanStep s e) := by
  rcases h with ⟨keys, hkeys, hk⟩ | hnone | hstopped
  · cases e with
    | batch keys' =>
        simp only [scanStep]
        cases hs : s.stopped with
        | true => exact .inr (.inr hs)
        | false => exact .inl ⟨keys, List.mem_append_left _ hkeys, hk⟩
    | loop =>
        simp only [scanStep]
        cases hw : s.waiting with
        | nil =>
            rw [hw] at hkeys
            exact absurd hkeys List.not_mem_nil
        | cons first waiting =>
            rw [hw] at hkeys
            rcases List.mem_cons.mp hkeys with rfl | hlater
            · refine .inr (.inl ?_)
              show deleteBatch keys s.store k = none
              rw [deleteBatch_eq_remove, remove_of_mem hk]
            · exact .inl ⟨keys, hlater, hk⟩
    | error => exact .inr (.inr rfl)
    | set key value => exact .inl ⟨keys, hkeys, hk⟩
    | del key => exact .inl ⟨keys, hkeys, hk⟩
  · exact .inr (.inl (scanStep_none he hnone))
  · refine .inr (.inr ?_)
    cases e with
    | batch keys =>
        simp only [scanStep, hstopped, if_true]
    | loop =>
        simp only [scanStep]
        cases s.waiting <;> exact hstopped
    | error => rfl
    | set key value => exact hstopped
    | del key => exact hstopped

theorem doomed_of_batch {k : κ} {s : Scan κ α} {keys : List κ} (hk : k ∈ keys) :
    Doomed k (scanStep s (.batch keys)) := by
  simp only [scanStep]
  cases hs : s.stopped with
  | true => exact .inr (.inr hs)
  | false => exact .inl ⟨keys, List.mem_append_right _ (List.mem_singleton_self _), hk⟩

theorem play_doomed {k : κ} {s : Scan κ α} {events : List (Event κ α)} {keys : List κ}
    (hadds : Throughout scanStep AddsNone s events) (hbatch : .batch keys ∈ events)
    (hk : k ∈ keys) : Doomed k (play scanStep s events) := by
  obtain ⟨before, later, rfl⟩ := List.append_of_mem hbatch
  rw [play_append]
  have hlater := (throughout_append.mp hadds).2
  exact hlater.2.play (fun _ _ hs he => hs.step he) (doomed_of_batch hk)

/-- A scan that is read to its end: `during` goes from its start to its last reply, `after`
    to the end of the loop. -/
structure FullScan (p : κ → Bool) (s : Scan κ α) (during after : List (Event κ α)) :
    Prop where
  idle : s.waiting = []
  matching : ∀ keys, .batch keys ∈ during ++ after → ∀ k ∈ keys, p k = true
  /-- What a scan promises: a key that is there throughout is found. -/
  complete : ∀ k, p k = true → Always scanStep (fun s => s.store k ≠ none) s during →
    ∃ keys, .batch keys ∈ during ∧ k ∈ keys
  emptied : (play scanStep s (during ++ after)).waiting = []
  succeeds : (play scanStep s (during ++ after)).stopped = false

/-- **All of them.**  With no key added meanwhile, no matching key is left. -/
theorem FullScan.removes {p : κ → Bool} {s : Scan κ α} {during after : List (Event κ α)}
    (h : FullScan p s during after)
    (hadds : Throughout scanStep AddsNone s (during ++ after)) {k : κ} (hk : p k = true) :
    (play scanStep s (during ++ after)).store k = none := by
  by_contra hleft
  have halways := always_of_final hadds hleft
  have hduring : Always scanStep (fun s => s.store k ≠ none) s during := by
    rw [always_iff] at halways ⊢
    rintro taken rest rfl
    exact halways taken (rest ++ after) (List.append_assoc ..)
  obtain ⟨keys, hbatch, hmem⟩ := h.complete k hk hduring
  rcases play_doomed hadds (List.mem_append_left _ hbatch) hmem with
    ⟨keys', hkeys', -⟩ | hnone | hstopped
  · rw [h.emptied] at hkeys'
    exact List.not_mem_nil hkeys'
  · exact hleft hnone
  · rw [h.succeeds] at hstopped
    cases hstopped

/-- Where nobody else uses the store, it is left with the keys that do not match. -/
theorem FullScan.alone {p : κ → Bool} {s : Scan κ α} {during after : List (Event κ α)}
    (h : FullScan p s during after) (halone : ∀ e ∈ during ++ after, e.foreign = false) :
    (play scanStep s (during ++ after)).store = fun k => if p k then none else s.store k := by
  have hadds : ∀ (s : Scan κ α) (events : List (Event κ α)),
      (∀ e ∈ events, e.foreign = false) → Throughout scanStep AddsNone s events := by
    intro s events
    induction events generalizing s with
    | nil => exact fun _ => trivial
    | cons e rest ih =>
        intro hown
        refine ⟨?_, ih _ fun e' he' => hown e' (List.mem_cons_of_mem _ he')⟩
        have he := hown e (List.mem_cons_self ..)
        cases e with
        | set key value => cases he
        | _ => trivial
  funext k
  cases hk : p k with
  | true => exact h.removes (hadds s _ halone) hk
  | false =>
      rw [play_scanStep_of_not_matching (Matching.of_idle h.idle h.matching) hk,
        List.filter_eq_nil_iff.mpr (fun e he => by rw [halone e he]; exact Bool.false_ne_true)]
      rfl

end PatternScan
