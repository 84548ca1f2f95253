import Mathlib.Data.Multiset.ZeroCons
import Mathlib.Logic.Relation

/-! # Rotating a one-time token behind a lock

    A holder keeps one token that may be exchanged for a new one, once.  An exchange is
    sent with the stored token while nobody holds the lock, takes the lock, and stores the
    new token and frees the lock in one step when its answer arrives.  Meanwhile the token
    may be dropped, and tokens that come from elsewhere are stored some time after they
    were received.

    If received tokens are new, at most one exchange is under way (`Sound.outstanding_le`),
    and no token is sent again after it was exchanged (`Sound.no_reuse`). -/

namespace TokenRotation

variable {τ : Type}

/-- What the other side said to an exchange. -/
inductive Status (τ : Type) where
  | sent
  | failed
  | succeeded (new : τ)
  deriving DecidableEq

/-- An exchange: its token, how it went, and whether the holder has dealt with that. -/
structure Exchange (τ : Type) where
  token : τ
  status : Status τ
  ended : Bool

/-- What a client has of its tokens. -/
structure Holder (τ : Type) where
  stored : Option τ
  waiting : Multiset τ
  exchanges : List (Exchange τ)
  lock : Option Nat

/-- The token is known to the holder: stored, on its way to be stored, sent, or the result
    of an exchange. -/
def Holder.Known (h : Holder τ) (t : τ) : Prop :=
  h.stored = some t ∨ t ∈ h.waiting ∨
    ∃ f ∈ h.exchanges, f.token = t ∨ f.status = .succeeded t

instance [DecidableEq τ] (h : Holder τ) (t : τ) : Decidable (h.Known t) :=
  inferInstanceAs (Decidable (_ ∨ _ ∨ ∃ f ∈ h.exchanges, _ ∨ _))

/-- What the holder stores when it learns how an exchange went. -/
def Status.store (status : Status τ) (stored : Option τ) : Option τ :=
  match status with
  | .succeeded new => some new
  | _ => stored

/-- What a holder may do. -/
inductive Step (h : Holder τ) : Holder τ → Prop where
  | stay : Step h h
  | drop : Step h { h with stored := none }
  /-- A new token comes from elsewhere. -/
  | receive {t : τ} (new : ¬ h.Known t) : Step h { h with waiting := t ::ₘ h.waiting }
  | store {t : τ} {rest : Multiset τ} (received : h.waiting = t ::ₘ rest) :
      Step h { h with stored := some t, waiting := rest }
  | discard {t : τ} {rest : Multiset τ} (received : h.waiting = t ::ₘ rest) :
      Step h { h with waiting := rest }
  /-- An exchange of the stored token begins. -/
  | send {t : τ} (stored : h.stored = some t) (free : h.lock = none) :
      Step h { h with
        exchanges := h.exchanges ++ [⟨t, .sent, false⟩]
        lock := some h.exchanges.length }
  /-- The other side decides. -/
  | answer {j : Nat} {t : τ} {status : Status τ}
      (asked : h.exchanges[j]? = some ⟨t, .sent, false⟩)
      (new : ∀ n, status = .succeeded n → ¬ h.Known n) :
      Step h { h with exchanges := h.exchanges.set j ⟨t, status, false⟩ }
  /-- The holder learns of it. -/
  | finish {j : Nat} {t : τ} {status : Status τ}
      (decided : h.exchanges[j]? = some ⟨t, status, false⟩) :
      Step h { h with
        stored := status.store h.stored
        exchanges := h.exchanges.set j ⟨t, status, true⟩
        lock := none }

/-- The invariant.  Tokens that wait, and those of exchanges that are not over, are known
    nowhere else; the lock is held exactly by the exchange that is not over; and the stored
    token is none that was exchanged before. -/
structure Sound (h : Holder τ) : Prop where
  nodup : h.waiting.Nodup
  waiting : ∀ t ∈ h.waiting, h.stored ≠ some t ∧
    ∀ (j : Nat) (f : Exchange τ), h.exchanges[j]? = some f →
      f.token ≠ t ∧ (f.status = .succeeded t → f.ended = true)
  pending : ∀ (j : Nat) (f : Exchange τ) (t : τ), h.exchanges[j]? = some f →
    f.ended = false → f.status = .succeeded t →
      h.stored ≠ some t ∧ ∀ (i : Nat) (g : Exchange τ),
        h.exchanges[i]? = some g → g.token ≠ t
  lock : ∀ (j : Nat) (f : Exchange τ), h.exchanges[j]? = some f →
    (f.ended = false ↔ h.lock = some j)
  exchanged : ∀ (j : Nat) (f : Exchange τ) (t : τ), h.exchanges[j]? = some f →
    f.ended = true → f.status = .succeeded t → h.stored ≠ some f.token

/-- A holder that has sent nothing. -/
theorem sound_start (stored : Option τ) : Sound ⟨stored, 0, [], none⟩ where
  nodup := Multiset.nodup_zero
  waiting t ht := absurd ht (Multiset.notMem_zero t)
  pending j f t hf := by cases hf
  lock j f hf := by cases hf
  exchanged j f t hf := by cases hf

/-! ## Entries of an overwritten list -/

theorem getElem?_set_cases {α : Type} {l : List α} {i j : Nat} {a b : α}
    (h : (l.set j a)[i]? = some b) : (i = j ∧ b = a) ∨ (i ≠ j ∧ l[i]? = some b) := by
  by_cases hij : i = j
  · subst hij
    have hlt : i < l.length := by
      have := (List.getElem?_eq_some_iff.mp h).1
      rwa [List.length_set] at this
    rw [List.getElem?_set_self hlt] at h
    exact Or.inl ⟨rfl, (Option.some.inj h).symm⟩
  · rw [List.getElem?_set_ne (Ne.symm hij)] at h
    exact Or.inr ⟨hij, h⟩

theorem getElem?_append_cases {α : Type} {l : List α} {i : Nat} {a b : α}
    (h : (l ++ [a])[i]? = some b) : (i = l.length ∧ b = a) ∨ l[i]? = some b := by
  by_cases hi : i < l.length
  · rw [List.getElem?_append_left hi] at h
    exact Or.inr h
  · have hlen : i = l.length := by
      have := (List.getElem?_eq_some_iff.mp h).1
      simp only [List.length_append, List.length_cons, List.length_nil] at this
      omega
    subst hlen
    rw [List.getElem?_concat_length] at h
    exact Or.inl ⟨rfl, (Option.some.inj h).symm⟩

/-! ## The invariant is kept -/

section Steps

variable {h h' : Holder τ}

theorem not_known {t : τ} (hn : ¬ h.Known t) : h.stored ≠ some t ∧ t ∉ h.waiting ∧
    ∀ (j : Nat) (f : Exchange τ), h.exchanges[j]? = some f →
      f.token ≠ t ∧ f.status ≠ .succeeded t := by
  refine ⟨fun hs => hn (Or.inl hs), fun hw => hn (Or.inr (Or.inl hw)), ?_⟩
  intro j f hf
  have hmem := List.mem_of_getElem? hf
  exact ⟨fun ht => hn (Or.inr (Or.inr ⟨f, hmem, Or.inl ht⟩)),
    fun ht => hn (Or.inr (Or.inr ⟨f, hmem, Or.inr ht⟩))⟩

theorem Sound.receive (hs : Sound h) {t : τ} (hn : ¬ h.Known t) :
    Sound { h with waiting := t ::ₘ h.waiting } := by
  obtain ⟨hstored, hwaiting, hexchanges⟩ := not_known hn
  refine ⟨Multiset.nodup_cons.mpr ⟨hwaiting, hs.nodup⟩, ?_, hs.pending, hs.lock,
    hs.exchanged⟩
  intro x hx
  rcases Multiset.mem_cons.mp hx with rfl | hx
  · refine ⟨hstored, ?_⟩
    intro j f hf
    exact ⟨(hexchanges j f hf).1, fun ht => absurd ht (hexchanges j f hf).2⟩
  · exact hs.waiting x hx

theorem Sound.store (hs : Sound h) {t : τ} {rest : Multiset τ}
    (hw : h.waiting = t ::ₘ rest) : Sound { h with stored := some t, waiting := rest } := by
  have hnodup := hs.nodup
  rw [hw] at hnodup
  obtain ⟨hnot, hrest⟩ := Multiset.nodup_cons.mp hnodup
  have ht := hs.waiting t (by rw [hw]; exact Multiset.mem_cons_self t rest)
  refine ⟨hrest, ?_, ?_, hs.lock, ?_⟩
  · intro x hx
    refine ⟨?_, (hs.waiting x (by rw [hw]; exact Multiset.mem_cons_of_mem hx)).2⟩
    intro heq
    rw [Option.some.inj heq] at hnot
    exact hnot hx
  · intro j f n hf hover hn
    refine ⟨?_, (hs.pending j f n hf hover hn).2⟩
    intro heq
    -- what waits is not the result of an exchange that is not over
    have hdone := (ht.2 j f hf).2 (hn.trans (congrArg Status.succeeded (Option.some.inj heq).symm))
    rw [hover] at hdone
    cases hdone
  · intro j f n hf _ _ heq
    exact (ht.2 j f hf).1 (Option.some.inj heq).symm

theorem Sound.discard (hs : Sound h) {t : τ} {rest : Multiset τ}
    (hw : h.waiting = t ::ₘ rest) : Sound { h with waiting := rest } := by
  have hnodup := hs.nodup
  rw [hw] at hnodup
  refine ⟨(Multiset.nodup_cons.mp hnodup).2, ?_, hs.pending, hs.lock, hs.exchanged⟩
  exact fun x hx => hs.waiting x (by rw [hw]; exact Multiset.mem_cons_of_mem hx)

/-- While the lock is free, every exchange is over. -/
theorem Sound.all_over (hs : Sound h) (hfree : h.lock = none) {j : Nat} {f : Exchange τ}
    (hf : h.exchanges[j]? = some f) : f.ended = true := by
  cases hover : f.ended with
  | true => rfl
  | false =>
      have hlock := (hs.lock j f hf).mp hover
      rw [hfree] at hlock
      cases hlock

theorem Sound.send (hs : Sound h) {t : τ} (hstored : h.stored = some t) (hfree : h.lock = none) :
    Sound { h with
      exchanges := h.exchanges ++ [⟨t, .sent, false⟩]
      lock := some h.exchanges.length } := by
  -- the new exchange is the last; while the lock is free all before it are over
  refine ⟨hs.nodup, ?_, ?_, ?_, ?_⟩
  · intro x hx
    refine ⟨(hs.waiting x hx).1, ?_⟩
    intro j f hf
    rcases getElem?_append_cases hf with ⟨-, rfl⟩ | hf
    · refine ⟨?_, fun hstatus => by cases hstatus⟩
      intro heq
      exact (hs.waiting x hx).1 (hstored.trans (congrArg some heq))
    · exact (hs.waiting x hx).2 j f hf
  · intro j f n hf hover hn
    rcases getElem?_append_cases hf with ⟨-, rfl⟩ | hf
    · cases hn
    · rw [hs.all_over hfree hf] at hover
      cases hover
  · intro j f hf
    rcases getElem?_append_cases hf with ⟨rfl, rfl⟩ | hf
    · exact ⟨fun _ => rfl, fun _ => rfl⟩
    · constructor
      · intro hover
        rw [hs.all_over hfree hf] at hover
        cases hover
      · intro hlock
        have hlt := (List.getElem?_eq_some_iff.mp hf).1
        exact absurd (Option.some.inj hlock) (Nat.ne_of_gt hlt)
  · intro j f n hf hover hn
    rcases getElem?_append_cases hf with ⟨-, rfl⟩ | hf
    · cases hover
    · exact hs.exchanged j f n hf hover hn

theorem Sound.answer (hs : Sound h) {j : Nat} {t : τ} {status : Status τ}
    (hasked : h.exchanges[j]? = some ⟨t, .sent, false⟩)
    (hnew : ∀ n, status = .succeeded n → ¬ h.Known n) :
    Sound { h with exchanges := h.exchanges.set j ⟨t, status, false⟩ } := by
  -- an answer is a token that nobody holds and no exchange carries
  refine ⟨hs.nodup, ?_, ?_, ?_, ?_⟩
  · intro x hx
    refine ⟨(hs.waiting x hx).1, ?_⟩
    intro i f hf
    rcases getElem?_set_cases hf with ⟨-, rfl⟩ | ⟨-, hf⟩
    · refine ⟨((hs.waiting x hx).2 j _ hasked).1, ?_⟩
      intro hx'
      exact absurd hx (not_known (hnew x hx')).2.1
    · exact (hs.waiting x hx).2 i f hf
  · intro i f n hf hover hn
    have hrest : h.stored ≠ some n ∧
        ∀ (i : Nat) (g : Exchange τ), h.exchanges[i]? = some g → g.token ≠ n := by
      rcases getElem?_set_cases hf with ⟨-, rfl⟩ | ⟨-, hf⟩
      · obtain ⟨hstored, -, hexchanges⟩ := not_known (hnew n hn)
        exact ⟨hstored, fun i g hg => (hexchanges i g hg).1⟩
      · exact hs.pending i f n hf hover hn
    refine ⟨hrest.1, ?_⟩
    intro i g hg
    rcases getElem?_set_cases hg with ⟨-, rfl⟩ | ⟨-, hg⟩
    · have htoken : t ≠ n := hrest.2 j _ hasked
      exact htoken
    · exact hrest.2 i g hg
  · intro i f hf
    rcases getElem?_set_cases hf with ⟨rfl, rfl⟩ | ⟨-, hf⟩
    · have hheld : (false = false ↔ h.lock = some i) := hs.lock i _ hasked
      exact hheld
    · exact hs.lock i f hf
  · intro i f n hf hover hn
    rcases getElem?_set_cases hf with ⟨-, rfl⟩ | ⟨-, hf⟩
    · cases hover
    · exact hs.exchanged i f n hf hover hn

theorem Sound.finish (hs : Sound h) {j : Nat} {t : τ} {status : Status τ}
    (hdecided : h.exchanges[j]? = some ⟨t, status, false⟩) :
    Sound { h with
      stored := status.store h.stored
      exchanges := h.exchanges.set j ⟨t, status, true⟩
      lock := none } := by
  -- the lock was held by this exchange, so all others are over
  have hlock : h.lock = some j := (hs.lock j _ hdecided).mp rfl
  have hover : ∀ {i : Nat} {f : Exchange τ},
      (h.exchanges.set j ⟨t, status, true⟩)[i]? = some f → f.ended = true := by
    intro i f hf
    rcases getElem?_set_cases hf with ⟨-, rfl⟩ | ⟨hne, hf⟩
    · rfl
    · cases ho : f.ended with
      | true => rfl
      | false =>
          have hi := (hs.lock i f hf).mp ho
          rw [hlock] at hi
          exact absurd (Option.some.inj hi).symm hne
  refine ⟨hs.nodup, ?_, ?_, ?_, ?_⟩
  · intro x hx
    constructor
    · cases status with
      | succeeded n =>
          intro heq
          have hdone := ((hs.waiting x hx).2 j _ hdecided).2
            (congrArg Status.succeeded (Option.some.inj heq))
          cases hdone
      | sent => exact (hs.waiting x hx).1
      | failed => exact (hs.waiting x hx).1
    · intro i f hf
      refine ⟨?_, fun _ => hover hf⟩
      rcases getElem?_set_cases hf with ⟨-, rfl⟩ | ⟨-, hf⟩
      · exact ((hs.waiting x hx).2 j _ hdecided).1
      · exact ((hs.waiting x hx).2 i f hf).1
  · intro i f n hf hnot _
    rw [hover hf] at hnot
    cases hnot
  · intro i f hf
    rw [hover hf]
    constructor
    · intro htrue
      cases htrue
    · intro hnone
      cases hnone
  · intro i f n hf _ hn
    cases status with
    | succeeded m =>
        -- the new token is none that was ever sent
        have hsent := (hs.pending j _ m hdecided rfl rfl).2
        intro heq
        rcases getElem?_set_cases hf with ⟨-, rfl⟩ | ⟨-, hf⟩
        · exact hsent j _ hdecided (Option.some.inj heq).symm
        · exact hsent i f hf (Option.some.inj heq).symm
    | sent =>
        rcases getElem?_set_cases hf with ⟨-, rfl⟩ | ⟨-, hf'⟩
        · cases hn
        · exact hs.exchanged i f n hf' (hover hf) hn
    | failed =>
        rcases getElem?_set_cases hf with ⟨-, rfl⟩ | ⟨-, hf'⟩
        · cases hn
        · exact hs.exchanged i f n hf' (hover hf) hn

/-- One step. -/
theorem Sound.step (hs : Sound h) (hstep : Step h h') : Sound h' := by
  cases hstep with
  | stay => exact hs
  | drop =>
      refine ⟨hs.nodup, ?_, ?_, hs.lock, ?_⟩
      · exact fun t ht => ⟨(Option.some_ne_none t).symm, (hs.waiting t ht).2⟩
      · exact fun j f t hf hover hn =>
          ⟨(Option.some_ne_none t).symm, (hs.pending j f t hf hover hn).2⟩
      · intro j f t _ _ _ heq
        cases heq
  | receive new => exact hs.receive new
  | store received => exact hs.store received
  | discard received => exact hs.discard received
  | send stored free => exact hs.send stored free
  | answer asked new => exact hs.answer asked new
  | finish decided => exact hs.finish decided

end Steps

/-! ## What follows -/

/-- The exchanges that are not over. -/
def Holder.outstanding (h : Holder τ) : Nat := (h.exchanges.filter fun f => !f.ended).length

/-- Entries that all stand at one place are at most one. -/
theorem filter_length_le_one {α : Type} {p : α → Bool} {l : List α} {k : Option Nat}
    (h : ∀ (i : Nat) (a : α), l[i]? = some a → p a = true → k = some i) :
    (l.filter p).length ≤ 1 := by
  induction l generalizing k with
  | nil => exact Nat.zero_le 1
  | cons a l ih =>
      by_cases ha : p a = true
      · have hk : k = some 0 := h 0 a rfl ha
        have hnone : l.filter p = [] := by
          refine List.filter_eq_nil_iff.mpr ?_
          intro b hb hpb
          obtain ⟨i, hi⟩ := List.mem_iff_getElem?.mp hb
          have hk' := h (i + 1) b hi hpb
          rw [hk] at hk'
          cases hk'
        rw [List.filter_cons_of_pos ha, hnone]
        exact Nat.le_refl 1
      · rw [List.filter_cons_of_neg ha]
        refine ih (k := k.map Nat.pred) ?_
        intro i b hi hb
        rw [h (i + 1) b hi hb]
        rfl

theorem Sound.outstanding_le {h : Holder τ} (hs : Sound h) : h.outstanding ≤ 1 := by
  refine filter_length_le_one (k := h.lock) ?_
  intro j f hf hover
  exact (hs.lock j f hf).mp (by simpa using hover)

/-- **No token is used again.**  Along any steps, whatever is sent after an exchange has
    succeeded carries another token. -/
theorem Sound.no_reuse {h h' : Holder τ} (hs : Sound h) (hrun : Relation.ReflTransGen Step h h')
    {f : Exchange τ} (hf : f ∈ h.exchanges) {n : τ} (hn : f.status = .succeeded n) :
    Sound h' ∧ h.exchanges.length ≤ h'.exchanges.length ∧
      (∃ f' ∈ h'.exchanges, f'.token = f.token ∧ f'.status = .succeeded n) ∧
      ∀ g ∈ h'.exchanges.drop h.exchanges.length, g.token ≠ f.token := by
  induction hrun with
  | refl =>
      refine ⟨hs, Nat.le_refl _, ⟨f, hf, rfl, hn⟩, ?_⟩
      intro g hg
      rw [List.drop_length] at hg
      cases hg
  | @tail mid last _ hstep ih =>
      obtain ⟨hmid, hlength, ⟨f', hf', htoken, hstatus⟩, hlater⟩ := ih
      refine ⟨hmid.step hstep, ?_⟩
      obtain ⟨i, hi⟩ := List.mem_iff_getElem?.mp hf'
      -- an entry that is overwritten keeps its token, and keeps its answer once it has one
      have hset : ∀ (j : Nat) (old new : Exchange τ), mid.exchanges[j]? = some old →
          new.token = old.token → (∀ m, old.status = .succeeded m →
            new.status = .succeeded m) →
          h.exchanges.length ≤ (mid.exchanges.set j new).length ∧
            (∃ f' ∈ mid.exchanges.set j new, f'.token = f.token ∧
              f'.status = .succeeded n) ∧
            ∀ g ∈ (mid.exchanges.set j new).drop h.exchanges.length, g.token ≠ f.token := by
        intro j old new hj hsame hkeep
        have hlt := (List.getElem?_eq_some_iff.mp hj).1
        refine ⟨by rw [List.length_set]; exact hlength, ?_, ?_⟩
        · by_cases hij : i = j
          · subst hij
            rw [hi] at hj
            obtain rfl := Option.some.inj hj
            refine ⟨new, List.mem_set hlt new, hsame.trans htoken, hkeep n hstatus⟩
          · refine ⟨f', List.mem_iff_getElem?.mpr ⟨i, ?_⟩, htoken, hstatus⟩
            rw [List.getElem?_set_ne (Ne.symm hij)]
            exact hi
        · intro g hg
          obtain ⟨k, hk⟩ := List.mem_iff_getElem?.mp hg
          rw [List.getElem?_drop] at hk
          rcases getElem?_set_cases hk with ⟨hkj, rfl⟩ | ⟨-, hk⟩
          · rw [hsame]
            refine hlater old (List.mem_iff_getElem?.mpr ⟨k, ?_⟩)
            rw [List.getElem?_drop, hkj]
            exact hj
          · refine hlater g (List.mem_iff_getElem?.mpr ⟨k, ?_⟩)
            rw [List.getElem?_drop]
            exact hk
      have hsame : h.exchanges.length ≤ mid.exchanges.length ∧
          (∃ f' ∈ mid.exchanges, f'.token = f.token ∧ f'.status = .succeeded n) ∧
          ∀ g ∈ mid.exchanges.drop h.exchanges.length, g.token ≠ f.token :=
        ⟨hlength, ⟨f', hf', htoken, hstatus⟩, hlater⟩
      cases hstep with
      | stay => exact hsame
      | drop => exact hsame
      | receive _ => exact hsame
      | store _ => exact hsame
      | discard _ => exact hsame
      | send stored free =>
          refine ⟨?_, ⟨f', List.mem_append_left _ hf', htoken, hstatus⟩, ?_⟩
          · rw [List.length_append]
            omega
          · intro g hg
            rw [List.drop_append_of_le_length hlength] at hg
            rcases List.mem_append.mp hg with hg | hg
            · exact hlater g hg
            · -- the lock is free, so the exchange is over and its token is not stored
              rw [List.mem_singleton.mp hg]
              intro heq
              refine hmid.exchanged i f' n hi (hmid.all_over free hi) hstatus ?_
              rw [stored, htoken]
              exact congrArg some heq
      | answer asked _ =>
          refine hset _ _ _ asked rfl ?_
          intro m hm
          cases hm
      | finish decided => exact hset _ _ _ decided rfl fun m hm => hm

end TokenRotation
