import Mathlib.Tactic.Common

/-! # Asynchronous programs as trees of awaited operations

    An `async` function runs without interruption between two `await`s; every
    `await` hands one operation to a service outside the function (a database,
    a cache, a clock) and goes on with the answer.  `Prog` is that shape and
    nothing else: what an operation does to the world is given by an `exec`,
    separately, so one program can be run alone, interleaved with others, or in
    a world whose services fail. -/

namespace AsyncProgram

/-- A program over the operations `Op`, answered in `Res op`, that returns an
    `α` or throws an `E`. -/
inductive Prog (Op : Type) (Res : Op → Type) (E α : Type) : Type where
  | done (a : α) : Prog Op Res E α
  | fail (e : E) : Prog Op Res E α
  | await (op : Op) (k : Res op → Prog Op Res E α) : Prog Op Res E α

namespace Prog

variable {Op : Type} {Res : Op → Type} {E α β : Type}

/-- Sequencing: `f` takes over where the program returns. -/
def bind : Prog Op Res E α → (α → Prog Op Res E β) → Prog Op Res E β
  | .done a, f => f a
  | .fail e, _ => .fail e
  | .await op k, f => .await op (fun r => (k r).bind f)

/-- `try p catch h`. -/
def catching : Prog Op Res E α → (E → Prog Op Res E α) → Prog Op Res E α
  | .done a, _ => .done a
  | .fail e, h => h e
  | .await op k, h => .await op (fun r => (k r).catching h)

/-- `try p finally c`. -/
def finallyDo : Prog Op Res E α → Prog Op Res E Unit → Prog Op Res E α
  | .done a, c => c.bind fun _ => .done a
  | .fail e, c => c.bind fun _ => .fail e
  | .await op k, c => .await op (fun r => (k r).finallyDo c)

instance : Monad (Prog Op Res E) where
  pure := .done
  bind := bind

/-- A single awaited operation. -/
def perform (op : Op) : Prog Op Res E (Res op) := .await op .done

/-- What was answered, or its error thrown. -/
def orThrow : Except E α → Prog Op Res E α
  | .ok a => .done a
  | .error e => .fail e

@[simp] theorem pure_eq (a : α) : (pure a : Prog Op Res E α) = .done a := rfl

@[simp] theorem done_bind (a : α) (f : α → Prog Op Res E β) :
    (Prog.done a >>= f) = f a := rfl

@[simp] theorem fail_bind (e : E) (f : α → Prog Op Res E β) :
    ((Prog.fail e : Prog Op Res E α) >>= f) = .fail e := rfl

@[simp] theorem await_bind (op : Op) (k : Res op → Prog Op Res E α)
    (f : α → Prog Op Res E β) :
    (Prog.await op k >>= f) = .await op (fun r => k r >>= f) := rfl

@[simp] theorem perform_bind (op : Op) (f : Res op → Prog Op Res E β) :
    (perform op >>= f) = .await op f := rfl

@[simp] theorem done_catching (a : α) (h : E → Prog Op Res E α) :
    (Prog.done a).catching h = .done a := rfl

@[simp] theorem fail_catching (e : E) (h : E → Prog Op Res E α) :
    (Prog.fail e).catching h = h e := rfl

@[simp] theorem await_catching (op : Op) (k : Res op → Prog Op Res E α)
    (h : E → Prog Op Res E α) :
    (Prog.await op k).catching h = .await op (fun r => (k r).catching h) := rfl

@[simp] theorem done_finallyDo (a : α) (c : Prog Op Res E Unit) :
    (Prog.done a : Prog Op Res E α).finallyDo c = c >>= fun _ => .done a := rfl

@[simp] theorem fail_finallyDo (e : E) (c : Prog Op Res E Unit) :
    (Prog.fail e : Prog Op Res E α).finallyDo c = c >>= fun _ => .fail e := rfl

@[simp] theorem await_finallyDo (op : Op) (k : Res op → Prog Op Res E α)
    (c : Prog Op Res E Unit) :
    (Prog.await op k).finallyDo c = .await op (fun r => (k r).finallyDo c) := rfl

/-- What a finished program came back with. -/
def outcome : Prog Op Res E α → Option (Except E α)
  | .done a => some (.ok a)
  | .fail e => some (.error e)
  | .await _ _ => none

/-- The program returned (it neither threw nor waits). -/
def returned : Prog Op Res E α → Bool
  | .done _ => true
  | _ => false

/-- The program threw. -/
def threw : Prog Op Res E α → Bool
  | .fail _ => true
  | _ => false

/-- The program waits for no answer any more. -/
def finished : Prog Op Res E α → Bool
  | .await _ _ => false
  | _ => true

theorem finished_of_returned {p : Prog Op Res E α} (h : p.returned = true) :
    p.finished = true := by
  cases p with
  | done a => rfl
  | fail e => rfl
  | await op k => exact nomatch h

theorem eq_done_of_outcome {p : Prog Op Res E α} {a : α} (h : p.outcome = some (.ok a)) :
    p = .done a := by
  cases p with
  | done b => cases h; rfl
  | fail e => cases h
  | await op k => cases h

theorem finished_of_threw {p : Prog Op Res E α} (h : p.threw = true) : p.finished = true := by
  cases p with
  | done a => rfl
  | fail e => rfl
  | await op k => exact nomatch h

end Prog

/-! ## Running one program alone -/

section Solo

variable {Op : Type} {Res : Op → Type} {E α : Type} {σ Ω : Type}
variable (exec : Ω → (op : Op) → σ → σ × Res op)

/-- Run a program to its end with nobody else touching the state.  `ω n` is
    what the outside world decides at the `n`-th await (which matching row a
    query returns, how far the clock moved, which id is generated). -/
def solo : (Nat → Ω) → Prog Op Res E α → σ → σ × Except E α
  | _, .done a, s => (s, .ok a)
  | _, .fail e, s => (s, .error e)
  | ω, .await op k, s =>
      solo (fun n => ω (n + 1)) (k (exec (ω 0) op s).2) (exec (ω 0) op s).1

@[simp] theorem solo_done (ω : Nat → Ω) (a : α) (s : σ) :
    solo exec ω (Prog.done a : Prog Op Res E α) s = (s, .ok a) := rfl

@[simp] theorem solo_fail (ω : Nat → Ω) (e : E) (s : σ) :
    solo exec ω (Prog.fail e : Prog Op Res E α) s = (s, .error e) := rfl

@[simp] theorem solo_await (ω : Nat → Ω) (op : Op)
    (k : Res op → Prog Op Res E α) (s : σ) :
    solo exec ω (Prog.await op k) s
      = solo exec (fun n => ω (n + 1)) (k (exec (ω 0) op s).2)
          (exec (ω 0) op s).1 := rfl

/-- Sequencing: once the first part has returned, the run is one of what follows. -/
theorem solo_bind {β : Type} {p : Prog Op Res E α} {f : α → Prog Op Res E β}
    {ω : Nat → Ω} {s s₁ : σ} {a : α} (h : solo exec ω p s = (s₁, .ok a)) :
    ∃ ω', solo exec ω (p >>= f) s = solo exec ω' (f a) s₁ := by
  induction p generalizing ω s with
  | done b =>
      cases h
      exact ⟨ω, rfl⟩
  | fail e => cases h
  | await op k ih => exact ih _ h

/-- Every way the program can end, run alone, meets the postcondition `Q`. -/
def Ensures (Q : Except E α → σ → Prop) : Prog Op Res E α → σ → Prop
  | .done a, s => Q (.ok a) s
  | .fail e, s => Q (.error e) s
  | .await op k, s => ∀ ω, Ensures Q (k (exec ω op s).2) (exec ω op s).1

/-- The postcondition holds of every solo run. -/
theorem ensures_iff [Nonempty Ω] {Q : Except E α → σ → Prop} (p : Prog Op Res E α)
    (s : σ) :
    Ensures exec Q p s ↔ ∀ ω, Q (solo exec ω p s).2 (solo exec ω p s).1 := by
  induction p generalizing s with
  | done a => exact ⟨fun h _ => h, fun h => h fun _ => Classical.ofNonempty⟩
  | fail e => exact ⟨fun h _ => h, fun h => h fun _ => Classical.ofNonempty⟩
  | await op k ih =>
      constructor
      · intro h ω
        exact (ih _ _).mp (h (ω 0)) fun n => ω (n + 1)
      · intro h ω₀
        refine (ih _ _).mpr fun ω => ?_
        exact h fun n => match n with
          | 0 => ω₀
          | n + 1 => ω n

variable {exec}

theorem Ensures.mono {Q Q' : Except E α → σ → Prop} {p : Prog Op Res E α} {s : σ}
    (h : Ensures exec Q p s) (hQ : ∀ r s', Q r s' → Q' r s') : Ensures exec Q' p s := by
  induction p generalizing s with
  | done a => exact hQ _ _ h
  | fail e => exact hQ _ _ h
  | await op k ih => exact fun ω => ih _ (h ω)

theorem Ensures.and {Q Q' : Except E α → σ → Prop} {p : Prog Op Res E α} {s : σ}
    (h : Ensures exec Q p s) (h' : Ensures exec Q' p s) :
    Ensures exec (fun r s' => Q r s' ∧ Q' r s') p s := by
  induction p generalizing s with
  | done a => exact ⟨h, h'⟩
  | fail e => exact ⟨h, h'⟩
  | await op k ih => exact fun ω => ih _ (h ω) (h' ω)

/-- Sequencing: where the first part returns, the second takes over; what it throws
    ends the whole. -/
theorem ensures_bind {β : Type} {Q : Except E β → σ → Prop} {p : Prog Op Res E α}
    {f : α → Prog Op Res E β} {s : σ} :
    Ensures exec Q (p >>= f) s ↔
      Ensures exec (fun r s' => match r with
        | .ok a => Ensures exec Q (f a) s'
        | .error e => Q (.error e) s') p s := by
  induction p generalizing s with
  | done a => exact Iff.rfl
  | fail e => exact Iff.rfl
  | await op k ih => exact forall_congr' fun ω => ih _

/-- Mapping the result. -/
theorem ensures_map {β : Type} {Q : Except E β → σ → Prop} {p : Prog Op Res E α}
    {f : α → β} {s : σ} :
    Ensures exec Q (f <$> p) s ↔ Ensures exec (fun r s' => Q (r.map f) s') p s := by
  show Ensures exec Q (p >>= fun a => .done (f a)) s ↔ _
  rw [ensures_bind]
  constructor
  · exact fun h => h.mono fun r s' hr => by cases r <;> exact hr
  · exact fun h => h.mono fun r s' hr => by cases r <;> exact hr

/-- Where the program throws, the handler takes over. -/
theorem ensures_catching {Q : Except E α → σ → Prop} {p : Prog Op Res E α}
    {h : E → Prog Op Res E α} {s : σ} :
    Ensures exec Q (p.catching h) s ↔
      Ensures exec (fun r s' => match r with
        | .ok a => Q (.ok a) s'
        | .error e => Ensures exec Q (h e) s') p s := by
  induction p generalizing s with
  | done a => exact Iff.rfl
  | fail e => exact Iff.rfl
  | await op k ih => exact forall_congr' fun ω => ih _

/-- However the program ends, the last part runs, and what it throws takes the place of
    the outcome. -/
theorem ensures_finallyDo {Q : Except E α → σ → Prop} {p : Prog Op Res E α}
    {c : Prog Op Res E Unit} {s : σ} :
    Ensures exec Q (p.finallyDo c) s ↔
      Ensures exec (fun r s' => Ensures exec (fun r' s'' => match r' with
        | .ok _ => Q r s''
        | .error e => Q (.error e) s'') c s') p s := by
  induction p generalizing s with
  | done a =>
      show Ensures exec Q (c >>= fun _ => .done a) s ↔
        Ensures exec (fun r' s' => match r' with
          | .ok _ => Q (.ok a) s'
          | .error e => Q (.error e) s') c s
      rw [ensures_bind]
      constructor
      · exact fun h => h.mono fun r s' hr => by cases r <;> exact hr
      · exact fun h => h.mono fun r s' hr => by cases r <;> exact hr
  | fail e =>
      show Ensures exec Q (c >>= fun _ => .fail e) s ↔
        Ensures exec (fun r' s' => match r' with
          | .ok _ => Q (.error e) s'
          | .error e' => Q (.error e') s') c s
      rw [ensures_bind]
      constructor
      · exact fun h => h.mono fun r s' hr => by cases r <;> exact hr
      · exact fun h => h.mono fun r s' hr => by cases r <;> exact hr
  | await op k ih => exact forall_congr' fun ω => ih _

/-- Two postconditions of one program meet in some end. -/
theorem Ensures.meet [Nonempty Ω] {Q Q' : Except E α → σ → Prop} {p : Prog Op Res E α}
    {s : σ} (h : Ensures exec Q p s) (h' : Ensures exec Q' p s) :
    ∃ r s', Q r s' ∧ Q' r s' := by
  have ω : Nat → Ω := fun _ => Classical.ofNonempty
  exact ⟨_, _, (ensures_iff exec p s).mp h ω, (ensures_iff exec p s).mp h' ω⟩

variable (exec)

/-- The outside world decides within `C` at every await of a solo run. -/
def Along (C : Ω → Op → σ → Prop) : (Nat → Ω) → Prog Op Res E α → σ → Prop
  | _, .done _, _ => True
  | _, .fail _, _ => True
  | ω, .await op k, s => C (ω 0) op s ∧
      Along C (fun n => ω (n + 1)) (k (exec (ω 0) op s).2) (exec (ω 0) op s).1

instance decidableAlong {C : Ω → Op → σ → Prop} [∀ ω op s, Decidable (C ω op s)] :
    ∀ (ω : Nat → Ω) (p : Prog Op Res E α) (s : σ), Decidable (Along exec C ω p s)
  | _, .done _, _ => isTrue trivial
  | _, .fail _, _ => isTrue trivial
  | ω, .await op k, s =>
      have := decidableAlong (C := C) (fun n => ω (n + 1)) (k (exec (ω 0) op s).2)
        (exec (ω 0) op s).1
      inferInstanceAs (Decidable (_ ∧ _))

theorem along_true (ω : Nat → Ω) (p : Prog Op Res E α) (s : σ) :
    Along exec (fun _ _ _ => True) ω p s := by
  induction p generalizing ω s with
  | done a => trivial
  | fail e => trivial
  | await op k ih => exact ⟨trivial, ih _ _ _⟩

/-- Every way the program can end, run alone in a world that decides within `C`, meets
    the postcondition `Q`. -/
def EnsuresWhen (C : Ω → Op → σ → Prop) (Q : Except E α → σ → Prop) :
    Prog Op Res E α → σ → Prop
  | .done a, s => Q (.ok a) s
  | .fail e, s => Q (.error e) s
  | .await op k, s =>
      ∀ ω, C ω op s → EnsuresWhen C Q (k (exec ω op s).2) (exec ω op s).1

variable {exec}

theorem EnsuresWhen.solo {C : Ω → Op → σ → Prop} {Q : Except E α → σ → Prop}
    {p : Prog Op Res E α} {s : σ} (h : EnsuresWhen exec C Q p s) {ω : Nat → Ω}
    (hω : Along exec C ω p s) : Q (solo exec ω p s).2 (solo exec ω p s).1 := by
  induction p generalizing s ω with
  | done a => exact h
  | fail e => exact h
  | await op k ih => exact ih _ (h (ω 0) hω.1) hω.2

theorem EnsuresWhen.mono {C : Ω → Op → σ → Prop} {Q Q' : Except E α → σ → Prop}
    {p : Prog Op Res E α} {s : σ} (h : EnsuresWhen exec C Q p s)
    (hQ : ∀ r s', Q r s' → Q' r s') : EnsuresWhen exec C Q' p s := by
  induction p generalizing s with
  | done a => exact hQ _ _ h
  | fail e => exact hQ _ _ h
  | await op k ih => exact fun ω hω => ih _ (h ω hω)

/-- What holds in some worlds holds in fewer. -/
theorem EnsuresWhen.within {C C' : Ω → Op → σ → Prop} {Q : Except E α → σ → Prop}
    {p : Prog Op Res E α} {s : σ} (h : EnsuresWhen exec C Q p s)
    (hC : ∀ ω op s, C' ω op s → C ω op s) : EnsuresWhen exec C' Q p s := by
  induction p generalizing s with
  | done a => exact h
  | fail e => exact h
  | await op k ih => exact fun ω hω => ih _ (h ω (hC ω op s hω))

theorem EnsuresWhen.bind {β : Type} {C : Ω → Op → σ → Prop}
    {Q : Except E β → σ → Prop}
    {p : Prog Op Res E α} {f : α → Prog Op Res E β} {s : σ}
    (h : EnsuresWhen exec C (fun r s' => match r with
      | .ok a => EnsuresWhen exec C Q (f a) s'
      | .error e => Q (.error e) s') p s) : EnsuresWhen exec C Q (p >>= f) s := by
  induction p generalizing s with
  | done a => exact h
  | fail e => exact h
  | await op k ih => exact fun ω hω => ih _ (h ω hω)

theorem EnsuresWhen.map {β : Type} {C : Ω → Op → σ → Prop}
    {Q : Except E β → σ → Prop}
    {p : Prog Op Res E α} {f : α → β} {s : σ}
    (h : EnsuresWhen exec C (fun r s' => Q (r.map f) s') p s) :
    EnsuresWhen exec C Q (f <$> p) s :=
  EnsuresWhen.bind (h.mono fun r s' hr => by cases r <;> exact hr)

/-- What holds whatever the world decides. -/
theorem Ensures.when {C : Ω → Op → σ → Prop} {Q : Except E α → σ → Prop}
    {p : Prog Op Res E α} {s : σ} (h : Ensures exec Q p s) : EnsuresWhen exec C Q p s := by
  induction p generalizing s with
  | done a => exact h
  | fail e => exact h
  | await op k ih => exact fun ω _ => ih _ (h ω)

/-- Two conditions on what the world decides, the one of them on every decision. -/
theorem Along.and {C : Ω → Op → σ → Prop} {D : Ω → Prop} {ω : Nat → Ω}
    {p : Prog Op Res E α} {s : σ} (h : Along exec C ω p s) (hD : ∀ n, D (ω n)) :
    Along exec (fun ω op s => D ω ∧ C ω op s) ω p s := by
  induction p generalizing ω s with
  | done a => trivial
  | fail e => trivial
  | await op k ih => exact ⟨⟨hD 0, h.1⟩, ih _ h.2 fun n => hD (n + 1)⟩

/-- Whatever the answers, a value that the program returns is of the kind `R`. -/
def Returns (R : α → Prop) : Prog Op Res E α → Prop
  | .done a => R a
  | .fail _ => True
  | .await _ k => ∀ r, Returns R (k r)

theorem Returns.mono {R R' : α → Prop} {p : Prog Op Res E α} (h : Returns R p)
    (hR : ∀ a, R a → R' a) : Returns R' p := by
  induction p with
  | done a => exact hR a h
  | fail e => trivial
  | await op k ih => exact fun r => ih r (h r)

theorem returns_any (p : Prog Op Res E α) : Returns (fun _ => True) p := by
  induction p with
  | done a => trivial
  | fail e => trivial
  | await op k ih => exact fun r => ih r

theorem Returns.bind {β : Type} {R : β → Prop} {p : Prog Op Res E α}
    {f : α → Prog Op Res E β} (hf : ∀ a, Returns R (f a)) : Returns R (p >>= f) := by
  induction p with
  | done a => exact hf a
  | fail e => trivial
  | await op k ih => exact fun r => ih r

variable (exec)

/-- One operation after another, each run to its end: the state after a
    sequence of completed calls. -/
def soloAll : List (Prog Op Res E α × (Nat → Ω)) → σ → σ
  | [], s => s
  | (p, ω) :: rest, s => soloAll rest (solo exec ω p s).1

theorem soloAll_append (l₁ l₂ : List (Prog Op Res E α × (Nat → Ω))) (s : σ) :
    soloAll exec (l₁ ++ l₂) s = soloAll exec l₂ (soloAll exec l₁ s) := by
  induction l₁ generalizing s with
  | nil => rfl
  | cons hd rest ih =>
      obtain ⟨p, ω⟩ := hd
      exact ih (solo exec ω p s).1

/-! ### Sequences of calls -/

variable {Call : Type} (prog : Call → Prog Op Res E α)

/-- The state after a sequence of completed calls, each with what the outside world
    decides at its awaits. -/
def afterAll (l : List (Call × (Nat → Ω))) (s : σ) : σ :=
  soloAll exec (l.map fun c => (prog c.1, c.2)) s

/-- `C` holds whenever a call of the sequence begins. -/
def AtStarts (C : σ → Call → (Nat → Ω) → Prop) :
    List (Call × (Nat → Ω)) → σ → Prop
  | [], _ => True
  | (c, ω) :: rest, s => C s c ω ∧ AtStarts C rest (solo exec ω (prog c) s).1

instance decidableAtStarts {C : σ → Call → (Nat → Ω) → Prop}
    [∀ s c ω, Decidable (C s c ω)] :
    ∀ (l : List (Call × (Nat → Ω))) (s : σ), Decidable (AtStarts exec prog C l s)
  | [], _ => isTrue trivial
  | (c, ω) :: rest, s =>
      have := decidableAtStarts (C := C) rest (solo exec ω (prog c) s).1
      inferInstanceAs (Decidable (_ ∧ _))

/-- Two conditions on the calls, the one of them whatever the state. -/
theorem AtStarts.and {C : σ → Call → (Nat → Ω) → Prop}
    {D : Call → (Nat → Ω) → Prop}
    {l : List (Call × (Nat → Ω))} {s : σ} (h : AtStarts exec prog C l s)
    (hD : ∀ c ∈ l, D c.1 c.2) :
    AtStarts exec prog (fun s c ω => D c ω ∧ C s c ω) l s := by
  induction l generalizing s with
  | nil => trivial
  | cons hd rest ih =>
      exact ⟨⟨hD hd (List.mem_cons_self ..), h.1⟩,
        ih h.2 fun c hc => hD c (List.mem_cons_of_mem _ hc)⟩

/-- **Invariants of sequences.**  What every call keeps that begins where `C` holds, a
    sequence of such calls keeps. -/
theorem afterAll_keeps {I : σ → Prop} {C : σ → Call → (Nat → Ω) → Prop}
    (hcall : ∀ s c ω, I s → C s c ω → I (solo exec ω (prog c) s).1)
    {l : List (Call × (Nat → Ω))} {s : σ} (hC : AtStarts exec prog C l s) (hI : I s) :
    I (afterAll exec prog l s) := by
  induction l generalizing s with
  | nil => exact hI
  | cons hd rest ih =>
      obtain ⟨c, ω⟩ := hd
      exact ih hC.2 (hcall s c ω hI hC.1)

end Solo

end AsyncProgram
