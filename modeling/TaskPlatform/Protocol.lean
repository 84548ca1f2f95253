import TaskPlatform.Interleaving

/-! # Programs that keep to a protocol

    A protocol says in which mode a program may issue which operation, and to which
    mode the answer leads.  The mode of a call is then all that an invariant has to
    know of it: `Tracks.run` for the calls of a pool, `Conforms.keeps` and
    `Conforms.breach` for one program run alone. -/

namespace Interleaving

open AsyncProgram

variable {Op : Type} {Res : Op → Type} {M E α β σ Ω : Type}

/-- The modes in which an operation may be issued, where its answer leads, and the
    modes in which a program may end. -/
structure Protocol (Op : Type) (Res : Op → Type) (M : Type) where
  allows : M → Op → Prop
  next : M → (op : Op) → Res op → M
  rest : M → Prop

/-- Whatever the answers, the program keeps to the protocol. -/
def Conforms (P : Protocol Op Res M) : M → Prog Op Res E α → Prop
  | m, .done _ => P.rest m
  | m, .fail _ => P.rest m
  | m, .await op k => P.allows m op ∧ ∀ r, Conforms P (P.next m op r) (k r)

variable {P : Protocol Op Res M}

theorem Conforms.bind {m : M} {p : Prog Op Res E α} {f : α → Prog Op Res E β}
    (hp : Conforms P m p) (hf : ∀ a m', P.rest m' → Conforms P m' (f a)) :
    Conforms P m (p >>= f) := by
  induction p generalizing m with
  | done a => exact hf a m hp
  | fail e => exact hp
  | await op k ih => exact ⟨hp.1, fun r => ih r (hp.2 r)⟩

/-! ## One program run alone -/

variable {exec : Ω → (op : Op) → σ → σ × Res op}

/-- An invariant of mode and state, kept by every step within `C`. -/
theorem Conforms.keeps {C : Ω → Op → σ → Prop} {I : M → σ → Prop}
    (hstep : ∀ m ω op s, P.allows m op → C ω op s → I m s →
      I (P.next m op (exec ω op s).2) (exec ω op s).1)
    {p : Prog Op Res E α} {m : M} (hp : Conforms P m p) {ω : Nat → Ω} {s : σ}
    (hω : Along exec C ω p s) (hI : I m s) :
    ∃ m', P.rest m' ∧ I m' (solo exec ω p s).1 := by
  induction p generalizing m ω s with
  | done a => exact ⟨m, hp, hI⟩
  | fail e => exact ⟨m, hp, hI⟩
  | await op k ih =>
      exact ih _ (hp.2 _) hω.2 (hstep m (ω 0) op s hp.1 hω.1 hI)

/-- A step outside `C` leaves a mark, and what follows does not remove it. -/
theorem Conforms.breach {C : Ω → Op → σ → Prop} {I J : M → σ → Prop}
    (hstep : ∀ m ω op s, P.allows m op → C ω op s → I m s →
      I (P.next m op (exec ω op s).2) (exec ω op s).1)
    (hbreach : ∀ m ω op s, P.allows m op → ¬ C ω op s → I m s →
      J (P.next m op (exec ω op s).2) (exec ω op s).1)
    (hstay : ∀ m ω op s, P.allows m op → J m s →
      J (P.next m op (exec ω op s).2) (exec ω op s).1)
    {p : Prog Op Res E α} {m : M} (hp : Conforms P m p) {ω : Nat → Ω} {s : σ}
    (hω : ¬ Along exec C ω p s) (hI : I m s) :
    ∃ m', P.rest m' ∧ J m' (solo exec ω p s).1 := by
  induction p generalizing m ω s with
  | done a => exact absurd trivial hω
  | fail e => exact absurd trivial hω
  | await op k ih =>
      by_cases hC : C (ω 0) op s
      · exact ih _ (hp.2 _) (fun h => hω ⟨hC, h⟩) (hstep m (ω 0) op s hp.1 hC hI)
      · -- from here on the mark is there
        have hJ := hbreach m (ω 0) op s hp.1 hC hI
        have hrest := hp.2 (exec (ω 0) op s).2
        exact hrest.keeps (C := fun _ _ _ => True)
          (fun m ω op s ha _ hj => hstay m ω op s ha hj) (along_true exec _ _ _) hJ

/-! ## The calls of a pool -/

/-- The modes of the calls. -/
abbrev Tracks (P : Protocol Op Res M) (ms : List M) (calls : List (Prog Op Res E α)) : Prop :=
  List.Forall₂ (Conforms P) ms calls

/-- The mode of a call. -/
theorem Tracks.mode {ms : List M} {calls : List (Prog Op Res E α)} (h : Tracks P ms calls)
    {i : Nat} {m : M} (hm : ms[i]? = some m) :
    ∃ p, calls[i]? = some p ∧ Conforms P m p := by
  induction h generalizing i with
  | nil => cases hm
  | cons hp _ ih =>
      cases i with
      | zero =>
          cases hm
          exact ⟨_, rfl, hp⟩
      | succ i => exact ih hm

/-- What is known of a call that waits, and of all calls once it has its answer. -/
theorem Tracks.answer {ms : List M} {calls : List (Prog Op Res E α)} (h : Tracks P ms calls)
    {i : Nat} {op : Op} {k : Res op → Prog Op Res E α}
    (hi : calls[i]? = some (.await op k)) :
    ∃ m, ms[i]? = some m ∧ P.allows m op ∧
      ∀ r, Tracks P (ms.set i (P.next m op r)) (calls.set i (k r)) := by
  induction h generalizing i with
  | nil => cases hi
  | @cons m p ms calls hp hrest ih =>
      cases i with
      | zero =>
          cases hi
          exact ⟨m, rfl, hp.1, fun r => .cons (hp.2 r) hrest⟩
      | succ i =>
          obtain ⟨m', hm', hallows, hset⟩ := ih hi
          exact ⟨m', hm', hallows, fun r => .cons hp (hset r)⟩

/-- **Runs of conforming calls.**  An invariant of the modes and the state that every
    permitted step keeps holds after every permitted schedule. -/
theorem Tracks.run {D : Pool Op Res E α σ → Nat → Prop} {I : List M → σ → Prop}
    (hstep : ∀ (c : Pool Op Res E α σ) ms i ω op k m, Tracks P ms c.calls → D c i →
      c.calls[i]? = some (.await op k) → ms[i]? = some m → P.allows m op → I ms c.shared →
      I (ms.set i (P.next m op (exec ω op c.shared).2)) (exec ω op c.shared).1)
    {c : Pool Op Res E α σ} {ms : List M} (hms : Tracks P ms c.calls)
    {l : List (Nat × Ω)} (hl : Meets exec D c l) (hI : I ms c.shared) :
    ∃ ms', Tracks P ms' (run exec c l).calls ∧ I ms' (run exec c l).shared := by
  refine run_invariant exec (I := fun c => ∃ ms, Tracks P ms c.calls ∧ I ms c.shared)
    ?_ hl ⟨ms, hms, hI⟩
  rintro c i ω hD ⟨ms, hms, hI⟩
  rcases step_cases exec c i ω with h0 | ⟨op, k, hi, h0⟩
  · rw [h0]
    exact ⟨ms, hms, hI⟩
  · rw [h0]
    obtain ⟨m, hm, hallows, hset⟩ := hms.answer hi
    exact ⟨_, hset _, hstep c ms i ω op k m hms hD hi hm hallows hI⟩

/-- Calls that all begin in one mode. -/
theorem tracks_replicate {m : M} {calls : List (Prog Op Res E α)}
    (h : ∀ p ∈ calls, Conforms P m p) : Tracks P (List.replicate calls.length m) calls := by
  induction calls with
  | nil => exact .nil
  | cons p calls ih =>
      exact .cons (h p (List.mem_cons_self ..)) (ih fun q hq => h q (List.mem_cons_of_mem _ hq))

/-! ## Counting the calls in a mode -/

/-- One call leaves the mode or not, and comes to it or not. -/
theorem countP_set_getElem? {ms : List M} {i : Nat} {m : M} (hm : ms[i]? = some m) (m' : M)
    (f : M → Bool) :
    (ms.set i m').countP f + (if f m then 1 else 0)
      = ms.countP f + (if f m' then 1 else 0) := by
  induction ms generalizing i with
  | nil => cases hm
  | cons m₀ ms ih =>
      cases i with
      | zero =>
          cases hm
          rw [List.set_cons_zero, List.countP_cons, List.countP_cons]
          omega
      | succ i =>
          have hrest := ih hm
          rw [List.set_cons_succ, List.countP_cons, List.countP_cons]
          omega

end Interleaving
