import TaskPlatform.AsyncProgram
import Mathlib.Data.List.Basic

/-! # Interleavings of asynchronous programs

    Any number of programs run against one shared state; a schedule names, for
    every step, the program that moves and what the outside world decides at
    its await.  The file has three tools for statements about every schedule:

    * `Meets`, a condition that a schedule has to respect before each step, with
      the two induction rules `run_invariant` and `run_relation`;
    * `Discipline`, a rely-guarantee argument: what a program owes at each of its
      awaits while the others change the state within `rely`
      (`follows_run`);
    * `MustIssue`, for programs that cannot return without a marked operation:
      if that operation can only happen once, at most one program returns
      (`at_most_one_returns`). -/

namespace Interleaving

open AsyncProgram

variable {Op : Type} {Res : Op → Type} {E α σ Ω : Type}

/-- The shared state and the calls in flight (or finished). -/
structure Pool (Op : Type) (Res : Op → Type) (E α σ : Type) where
  shared : σ
  calls : List (Prog Op Res E α)

variable (exec : Ω → (op : Op) → σ → σ × Res op)

/-- Call `i` gets its next answer.  A finished call, or an index that is no
    call, changes nothing. -/
def step (c : Pool Op Res E α σ) (i : Nat) (ω : Ω) : Pool Op Res E α σ :=
  match c.calls[i]? with
  | some (.await op k) =>
      ⟨(exec ω op c.shared).1, c.calls.set i (k (exec ω op c.shared).2)⟩
  | _ => c

/-- Run a whole schedule. -/
def run : Pool Op Res E α σ → List (Nat × Ω) → Pool Op Res E α σ
  | c, [] => c
  | c, (i, ω) :: rest => run (step exec c i ω) rest

@[simp] theorem run_nil (c : Pool Op Res E α σ) : run exec c [] = c := rfl

@[simp] theorem run_cons (c : Pool Op Res E α σ) (i : Nat) (ω : Ω)
    (rest : List (Nat × Ω)) :
    run exec c ((i, ω) :: rest) = run exec (step exec c i ω) rest := rfl

theorem run_append (c : Pool Op Res E α σ) (l₁ l₂ : List (Nat × Ω)) :
    run exec c (l₁ ++ l₂) = run exec (run exec c l₁) l₂ := by
  induction l₁ generalizing c with
  | nil => rfl
  | cons hd rest ih =>
      obtain ⟨i, ω⟩ := hd
      exact ih (step exec c i ω)

/-- The step of a call that waits for the answer to `op`. -/
theorem step_await {c : Pool Op Res E α σ} {i : Nat} {op : Op}
    {k : Res op → Prog Op Res E α} (h : c.calls[i]? = some (.await op k)) (ω : Ω) :
    step exec c i ω
      = ⟨(exec ω op c.shared).1, c.calls.set i (k (exec ω op c.shared).2)⟩ := by
  simp only [step, h]

/-- All that a step can do: nothing, or answer one awaited operation. -/
theorem step_cases (c : Pool Op Res E α σ) (i : Nat) (ω : Ω) :
    step exec c i ω = c ∨
      ∃ op k, c.calls[i]? = some (.await op k) ∧
        step exec c i ω
          = ⟨(exec ω op c.shared).1, c.calls.set i (k (exec ω op c.shared).2)⟩ := by
  cases h : c.calls[i]? with
  | none => exact Or.inl (by simp only [step, h])
  | some p =>
      cases p with
      | done a => exact Or.inl (by simp only [step, h])
      | fail e => exact Or.inl (by simp only [step, h])
      | await op k => exact Or.inr ⟨op, k, rfl, step_await exec h ω⟩

/-- The other calls stay where they are. -/
theorem step_calls_ne (c : Pool Op Res E α σ) {i j : Nat} (ω : Ω) (h : j ≠ i) :
    (step exec c i ω).calls[j]? = c.calls[j]? := by
  rcases step_cases exec c i ω with h0 | ⟨op, k, -, h0⟩
  · rw [h0]
  · rw [h0]
    exact List.getElem?_set_ne (Ne.symm h)

/-- The call that moved. -/
theorem step_calls_self {c : Pool Op Res E α σ} {i : Nat} {op : Op}
    {k : Res op → Prog Op Res E α} (h : c.calls[i]? = some (.await op k)) (ω : Ω) :
    (step exec c i ω).calls[i]? = some (k (exec ω op c.shared).2) := by
  rw [step_await exec h]
  have hlt : i < c.calls.length := (List.getElem?_eq_some_iff.mp h).1
  exact List.getElem?_set_self hlt

/-- A call found after a step was there before, or is the one that moved. -/
theorem step_mem {c : Pool Op Res E α σ} {i : Nat} {ω : Ω}
    {p : Prog Op Res E α} (h : p ∈ (step exec c i ω).calls) :
    p ∈ c.calls ∨ ∃ op k, c.calls[i]? = some (.await op k) ∧
      p = k (exec ω op c.shared).2 := by
  rcases step_cases exec c i ω with h0 | ⟨op, k, hi, h0⟩
  · rw [h0] at h
    exact Or.inl h
  · rw [h0] at h
    rcases List.mem_or_eq_of_mem_set h with hm | heq
    · exact Or.inl hm
    · exact Or.inr ⟨op, k, hi, heq⟩

/-- A finished call never moves again. -/
theorem run_calls_finished {c : Pool Op Res E α σ} {i : Nat}
    {p : Prog Op Res E α} (h : c.calls[i]? = some p) (hp : p.finished = true)
    (l : List (Nat × Ω)) : (run exec c l).calls[i]? = some p := by
  induction l generalizing c with
  | nil => exact h
  | cons hd rest ih =>
      obtain ⟨j, ω⟩ := hd
      refine ih ?_
      by_cases hij : i = j
      · subst hij
        cases p with
        | done a => simp only [step, h]
        | fail e => simp only [step, h]
        | await op k => exact nomatch hp
      · rw [step_calls_ne exec c ω hij]
        exact h

/-- A call that the schedule does not name stays where it is. -/
theorem run_calls_idle {j : Nat} {l : List (Nat × Ω)} (h : ∀ e ∈ l, e.1 ≠ j)
    (c : Pool Op Res E α σ) : (run exec c l).calls[j]? = c.calls[j]? := by
  induction l generalizing c with
  | nil => rfl
  | cons hd rest ih =>
      obtain ⟨i, ω⟩ := hd
      have hij : j ≠ i := Ne.symm (h (i, ω) (List.mem_cons_self ..))
      rw [run_cons, ih fun e he => h e (List.mem_cons_of_mem _ he),
        step_calls_ne exec c ω hij]

/-- The first step of a call that has moved. -/
theorem exists_first_step {c : Pool Op Res E α σ} {l : List (Nat × Ω)} {j : Nat}
    (h : (run exec c l).calls[j]? ≠ c.calls[j]?) :
    ∃ l₁ ω l₂, l = l₁ ++ (j, ω) :: l₂ ∧ ∀ e ∈ l₁, e.1 ≠ j := by
  induction l generalizing c with
  | nil => exact absurd rfl h
  | cons hd rest ih =>
      obtain ⟨i, ω⟩ := hd
      by_cases hij : i = j
      · subst hij
        exact ⟨[], ω, rest, rfl, fun e he => absurd he List.not_mem_nil⟩
      · rw [run_cons, ← step_calls_ne exec c ω (Ne.symm hij)] at h
        obtain ⟨l₁, ω', l₂, hl, hidle⟩ := ih h
        refine ⟨(i, ω) :: l₁, ω', l₂, by rw [hl]; rfl, ?_⟩
        intro e he
        rcases List.mem_cons.mp he with rfl | he
        · exact hij
        · exact hidle e he

/-- A call that has finished took its first step somewhere. -/
theorem first_step {c : Pool Op Res E α σ} {l : List (Nat × Ω)} {j : Nat} {op : Op}
    {k : Res op → Prog Op Res E α} (hj : c.calls[j]? = some (.await op k))
    {q : Prog Op Res E α} (hq : (run exec c l).calls[j]? = some q) (hfin : q.finished = true) :
    ∃ l₁ ω l₂, l = l₁ ++ (j, ω) :: l₂ ∧ (∀ e ∈ l₁, e.1 ≠ j) ∧
      (run exec c (l₁ ++ [(j, ω)])).calls[j]? =
        some (k (exec ω op (run exec c l₁).shared).2) := by
  have hmoved : (run exec c l).calls[j]? ≠ c.calls[j]? := by
    intro hsame
    rw [hq, hj] at hsame
    rw [Option.some.inj hsame] at hfin
    exact nomatch hfin
  obtain ⟨l₁, ω, l₂, hl, hidle⟩ := exists_first_step exec hmoved
  refine ⟨l₁, ω, l₂, hl, hidle, ?_⟩
  have hwaits := (run_calls_idle exec hidle c).trans hj
  rw [run_append, run_cons, run_nil, step_calls_self exec hwaits ω]

/-- What every answer keeps of a program holds of a call after every schedule. -/
theorem keeps_run {I : Prog Op Res E α → Prop}
    (hnext : ∀ op k, I (.await op k) → ∀ r, I (k r))
    {c : Pool Op Res E α σ} {l : List (Nat × Ω)} {j : Nat} {p q : Prog Op Res E α}
    (hp : c.calls[j]? = some p) (hI : I p) (hq : (run exec c l).calls[j]? = some q) : I q := by
  induction l generalizing c p with
  | nil =>
      have hpq : p = q := Option.some.inj (hp.symm.trans hq)
      exact hpq ▸ hI
  | cons hd rest ih =>
      obtain ⟨i, ω⟩ := hd
      by_cases hij : j = i
      · subst hij
        cases p with
        | done a => exact ih (run_calls_finished exec hp rfl [(j, ω)]) hI hq
        | fail e => exact ih (run_calls_finished exec hp rfl [(j, ω)]) hI hq
        | await op k => exact ih (step_calls_self exec hp ω) (hnext op k hI _) hq
      · exact ih ((step_calls_ne exec c ω hij).trans hp) hI hq

/-- Whatever a call can still return it could return at the start. -/
theorem returns_run {R : α → Prop} {c : Pool Op Res E α σ} {l : List (Nat × Ω)} {j : Nat}
    {p q : Prog Op Res E α} (hp : c.calls[j]? = some p) (hR : Returns R p)
    (hq : (run exec c l).calls[j]? = some q) : Returns R q :=
  keeps_run exec (fun _ _ h r => h r) hp hR hq

theorem run_calls_length (c : Pool Op Res E α σ) (l : List (Nat × Ω)) :
    (run exec c l).calls.length = c.calls.length := by
  induction l generalizing c with
  | nil => rfl
  | cons hd rest ih =>
      obtain ⟨i, ω⟩ := hd
      rw [run_cons, ih]
      rcases step_cases exec c i ω with h | ⟨op, k, -, h⟩
      · rw [h]
      · rw [h]
        exact List.length_set

/-- Every call found at the end was there at the start. -/
theorem run_calls_origin {c : Pool Op Res E α σ} {l : List (Nat × Ω)} {i : Nat}
    {q : Prog Op Res E α} (h : (run exec c l).calls[i]? = some q) :
    ∃ p, c.calls[i]? = some p := by
  obtain ⟨hlt, -⟩ := List.getElem?_eq_some_iff.mp h
  rw [run_calls_length] at hlt
  exact ⟨c.calls[i], List.getElem?_eq_getElem hlt⟩

/-- No call gets lost. -/
theorem run_calls_some {c : Pool Op Res E α σ} {i : Nat} {p : Prog Op Res E α}
    (h : c.calls[i]? = some p) (l : List (Nat × Ω)) :
    ∃ q, (run exec c l).calls[i]? = some q := by
  obtain ⟨hlt, -⟩ := List.getElem?_eq_some_iff.mp h
  rw [← run_calls_length exec c l] at hlt
  exact ⟨_, List.getElem?_eq_getElem hlt⟩

/-! ## Conditions on a schedule, and induction over it -/

/-- Every step of the schedule is taken where `D` allows it. -/
def Meets (D : Pool Op Res E α σ → Nat → Prop) :
    Pool Op Res E α σ → List (Nat × Ω) → Prop
  | _, [] => True
  | c, (i, ω) :: rest => D c i ∧ Meets D (step exec c i ω) rest

/-- A condition on the state in which an operation is carried out. -/
def OnOp (C : σ → Op → Prop) (c : Pool Op Res E α σ) (i : Nat) : Prop :=
  ∀ op k, c.calls[i]? = some (.await op k) → C c.shared op

theorem meets_append (D : Pool Op Res E α σ → Nat → Prop)
    (c : Pool Op Res E α σ) (l₁ l₂ : List (Nat × Ω)) :
    Meets exec D c (l₁ ++ l₂) ↔
      Meets exec D c l₁ ∧ Meets exec D (run exec c l₁) l₂ := by
  induction l₁ generalizing c with
  | nil => simp [Meets]
  | cons hd rest ih =>
      obtain ⟨i, ω⟩ := hd
      simp only [List.cons_append, Meets, run_cons, ih, and_assoc]

/-- Checking a condition on operations along a schedule. -/
def meetsCheck (C : σ → Op → Bool) : Pool Op Res E α σ → List (Nat × Ω) → Bool
  | _, [] => true
  | c, (i, ω) :: rest =>
      (match c.calls[i]? with
        | some (.await op _) => C c.shared op
        | _ => true) && meetsCheck C (step exec c i ω) rest

theorem meetsCheck_iff {C : σ → Op → Bool} (c : Pool Op Res E α σ)
    (l : List (Nat × Ω)) :
    meetsCheck exec C c l = true ↔ Meets exec (OnOp fun s op => C s op = true) c l := by
  induction l generalizing c with
  | nil => exact ⟨fun _ => trivial, fun _ => rfl⟩
  | cons hd rest ih =>
      obtain ⟨i, ω⟩ := hd
      show (_ && meetsCheck exec C (step exec c i ω) rest) = true ↔ _
      rw [Bool.and_eq_true, ih]
      refine and_congr_left fun _ => ?_
      constructor
      · intro h op k hi
        simpa [hi] using h
      · intro h
        split
        · rename_i op k hi
          exact h op k hi
        · rfl

instance {C : σ → Op → Prop} [∀ s op, Decidable (C s op)] (c : Pool Op Res E α σ)
    (l : List (Nat × Ω)) : Decidable (Meets exec (OnOp C) c l) :=
  decidable_of_iff (meetsCheck exec (fun s op => decide (C s op)) c l = true)
    ((meetsCheck_iff exec c l).trans (by simp only [decide_eq_true_eq]))

instance decidableMeets {D : Pool Op Res E α σ → Nat → Prop} [∀ c i, Decidable (D c i)] :
    ∀ (c : Pool Op Res E α σ) (l : List (Nat × Ω)), Decidable (Meets exec D c l)
  | _, [] => isTrue trivial
  | c, (i, ω) :: rest =>
      have := decidableMeets (D := D) (step exec c i ω) rest
      inferInstanceAs (Decidable (_ ∧ _))

/-- A condition that every step meets, every schedule meets. -/
theorem meets_of_forall {D : Pool Op Res E α σ → Nat → Prop} (h : ∀ c i, D c i)
    (c : Pool Op Res E α σ) (l : List (Nat × Ω)) : Meets exec D c l := by
  induction l generalizing c with
  | nil => trivial
  | cons hd rest ih => exact ⟨h c hd.1, ih _⟩

/-- A schedule meets a condition exactly when each of its steps does. -/
theorem meets_iff_split (D : Pool Op Res E α σ → Nat → Prop)
    (c : Pool Op Res E α σ) (l : List (Nat × Ω)) :
    Meets exec D c l ↔
      ∀ l₁ i ω l₂, l = l₁ ++ (i, ω) :: l₂ → D (run exec c l₁) i := by
  constructor
  · intro h l₁ i ω l₂ heq
    rw [heq, meets_append] at h
    exact h.2.1
  · intro h
    induction l generalizing c with
    | nil => trivial
    | cons hd rest ih =>
        obtain ⟨i, ω⟩ := hd
        refine ⟨h [] i ω rest rfl, ih _ ?_⟩
        intro l₁ j ω' l₂ heq
        have := h ((i, ω) :: l₁) j ω' l₂ (by rw [heq]; rfl)
        exact this

/-- **Invariants of runs.**  What every permitted step keeps, every permitted
    schedule keeps. -/
theorem run_invariant {D : Pool Op Res E α σ → Nat → Prop}
    {I : Pool Op Res E α σ → Prop}
    (hstep : ∀ c i ω, D c i → I c → I (step exec c i ω))
    {c : Pool Op Res E α σ} {l : List (Nat × Ω)}
    (hD : Meets exec D c l) (hI : I c) : I (run exec c l) := by
  induction l generalizing c with
  | nil => exact hI
  | cons hd rest ih =>
      obtain ⟨i, ω⟩ := hd
      exact ih hD.2 (hstep c i ω hD.1 hI)

theorem Meets.mono {C C' : σ → Op → Prop} {c : Pool Op Res E α σ} {l : List (Nat × Ω)}
    (h : Meets exec (OnOp C) c l) (hC : ∀ s op, C s op → C' s op) :
    Meets exec (OnOp C') c l := by
  induction l generalizing c with
  | nil => trivial
  | cons hd rest ih => exact ⟨fun op k hi => hC _ _ (h.1 op k hi), ih h.2⟩

theorem Meets.and {C C' : σ → Op → Prop} {c : Pool Op Res E α σ}
    {l : List (Nat × Ω)} (h : Meets exec (OnOp C) c l)
    (h' : Meets exec (OnOp C') c l) :
    Meets exec (OnOp (fun s op => C s op ∧ C' s op)) c l := by
  induction l generalizing c with
  | nil => trivial
  | cons hd rest ih =>
      exact ⟨fun op k hi => ⟨h.1 op k hi, h'.1 op k hi⟩, ih h.2 h'.2⟩

/-- **Relations along runs.**  A preorder that every permitted operation
    respects relates the two ends of every permitted schedule. -/
theorem run_relation {C : σ → Op → Prop} {R : σ → σ → Prop}
    (hrefl : ∀ s, R s s) (htrans : ∀ a b d, R a b → R b d → R a d)
    (hop : ∀ ω op s, C s op → R s (exec ω op s).1)
    {c : Pool Op Res E α σ} {l : List (Nat × Ω)}
    (hD : Meets exec (OnOp C) c l) : R c.shared (run exec c l).shared := by
  induction l generalizing c with
  | nil => exact hrefl _
  | cons hd rest ih =>
      obtain ⟨i, ω⟩ := hd
      refine htrans _ _ _ ?_ (ih hD.2)
      rcases step_cases exec c i ω with h0 | ⟨op, k, hi, h0⟩
      · rw [h0]; exact hrefl _
      · rw [h0]; exact hop ω op c.shared (hD.1 op k hi)

/-- If a state predicate comes to hold along a schedule, some step made it
    hold. -/
theorem exists_flip {K : σ → Prop} {c : Pool Op Res E α σ} {l : List (Nat × Ω)}
    (h0 : ¬ K c.shared) (h1 : K (run exec c l).shared) :
    ∃ l₁ i ω l₂, l = l₁ ++ (i, ω) :: l₂ ∧ ¬ K (run exec c l₁).shared ∧
      K (step exec (run exec c l₁) i ω).shared := by
  induction l generalizing c with
  | nil => exact absurd h1 h0
  | cons hd rest ih =>
      obtain ⟨i, ω⟩ := hd
      by_cases hK : K (step exec c i ω).shared
      · exact ⟨[], i, ω, rest, rfl, h0, hK⟩
      · obtain ⟨l₁, j, ω', l₂, heq, h2, h3⟩ := ih hK h1
        exact ⟨(i, ω) :: l₁, j, ω', l₂, by rw [heq]; rfl, h2, h3⟩

/-! ## Rely-guarantee -/

/-- What the programs of a pool may count on and what they owe in return.

    `inv` holds of the state between any two steps; `rely` says how the state may
    have changed while a program was waiting; `granted` is what the schedule
    guarantees about a state in which an operation is carried out; `owes` is the
    duty of a program at the place where it stands.  `keep` is the soundness of
    the bargain: an operation that was owed and granted keeps `inv` and stays
    within what the others rely on. -/
structure Discipline (exec : Ω → (op : Op) → σ → σ × Res op) (E α : Type) where
  inv : σ → Prop
  rely : σ → σ → Prop
  refl : ∀ s, rely s s
  trans : ∀ a b d, rely a b → rely b d → rely a d
  granted : σ → Op → Prop
  owes : σ → Prog Op Res E α → Prop
  keep : ∀ ω op k s, inv s → owes s (.await op k) → granted s op →
    inv (exec ω op s).1 ∧ rely s (exec ω op s).1

variable {exec}

/-- The program pays what it owes at every place it can come to, whatever the
    others do in between and whatever answers it gets. -/
def Follows (D : Discipline exec E α) : Prog Op Res E α → σ → Prop
  | .done a, s => ∀ s', D.inv s' → D.rely s s' → D.owes s' (.done a)
  | .fail e, s => ∀ s', D.inv s' → D.rely s s' → D.owes s' (.fail e)
  | .await op k, s => ∀ s', D.inv s' → D.rely s s' →
      D.owes s' (.await op k) ∧
        (D.granted s' op → ∀ ω, Follows D (k (exec ω op s').2) (exec ω op s').1)

/-- Waiting longer does no harm. -/
theorem Follows.stable {D : Discipline exec E α} {p : Prog Op Res E α} {s s' : σ}
    (h : Follows D p s) (hr : D.rely s s') : Follows D p s' := by
  cases p with
  | done a => intro s'' hi hr'; exact h s'' hi (D.trans _ _ _ hr hr')
  | fail e => intro s'' hi hr'; exact h s'' hi (D.trans _ _ _ hr hr')
  | await op k => intro s'' hi hr'; exact h s'' hi (D.trans _ _ _ hr hr')

theorem Follows.owes {D : Discipline exec E α} {p : Prog Op Res E α} {s : σ}
    (h : Follows D p s) (hi : D.inv s) : D.owes s p := by
  cases p with
  | done a => exact h s hi (D.refl s)
  | fail e => exact h s hi (D.refl s)
  | await op k => exact (h s hi (D.refl s)).1

/-- The state of a pool under a discipline. -/
structure Orderly (D : Discipline exec E α) (c : Pool Op Res E α σ) : Prop where
  inv : D.inv c.shared
  follows : ∀ p ∈ c.calls, Follows D p c.shared

/-- One permitted step keeps the pool orderly and is tolerated by everyone. -/
theorem Orderly.step {D : Discipline exec E α} {c : Pool Op Res E α σ}
    (h : Orderly D c) {i : Nat} (hg : OnOp D.granted c i) (ω : Ω) :
    Orderly D (step exec c i ω) ∧ D.rely c.shared (step exec c i ω).shared := by
  rcases step_cases exec c i ω with h0 | ⟨op, k, hi, h0⟩
  · rw [h0]
    exact ⟨h, D.refl _⟩
  · have hmem : Prog.await op k ∈ c.calls := List.mem_of_getElem? hi
    have hf := h.follows _ hmem c.shared h.inv (D.refl _)
    have hk := D.keep ω op k c.shared h.inv hf.1 (hg op k hi)
    rw [h0]
    refine ⟨⟨hk.1, ?_⟩, hk.2⟩
    intro p hp
    rcases List.mem_or_eq_of_mem_set hp with hm | heq
    · exact (h.follows p hm).stable hk.2
    · rw [heq]
      exact hf.2 (hg op k hi) ω

/-- **The rely-guarantee rule.**  Along every permitted schedule the pool stays
    orderly, and the whole run is within what each call relies on. -/
theorem follows_run {D : Discipline exec E α} {c : Pool Op Res E α σ}
    (h : Orderly D c) {l : List (Nat × Ω)}
    (hl : Meets exec (OnOp D.granted) c l) :
    Orderly D (run exec c l) ∧ D.rely c.shared (run exec c l).shared := by
  induction l generalizing c with
  | nil => exact ⟨h, D.refl _⟩
  | cons hd rest ih =>
      obtain ⟨i, ω⟩ := hd
      obtain ⟨h1, hr1⟩ := h.step hl.1 ω
      obtain ⟨h2, hr2⟩ := ih h1 hl.2
      exact ⟨h2, D.trans _ _ _ hr1 hr2⟩

/-- At every step of a permitted schedule the invariant holds, and the operation
    carried out was owed. -/
theorem Orderly.meets {D : Discipline exec E α} {c : Pool Op Res E α σ}
    (h : Orderly D c) {l : List (Nat × Ω)}
    (hl : Meets exec (OnOp D.granted) c l) :
    Meets exec (OnOp fun s op => D.inv s ∧ ∃ k, D.owes s (.await op k)) c l := by
  induction l generalizing c with
  | nil => trivial
  | cons hd rest ih =>
      obtain ⟨i, ω⟩ := hd
      refine ⟨?_, ih (h.step hl.1 ω).1 hl.2⟩
      intro op k hi
      exact ⟨h.inv, k, (h.follows _ (List.mem_of_getElem? hi)).owes h.inv⟩

/-- What one program sees to beyond the bargain: each of its operations is carried out
    where `C` holds of it, and what it ends in is of the kind `Q`. -/
def Upholds (D : Discipline exec E α) (C : σ → Op → Prop) (Q : Except E α → Prop) :
    Prog Op Res E α → σ → Prop
  | .done a, _ => Q (.ok a)
  | .fail e, _ => Q (.error e)
  | .await op k, s => ∀ s', D.inv s' → D.rely s s' →
      C s' op ∧ (D.granted s' op → ∀ ω, Upholds D C Q (k (exec ω op s').2)
        (exec ω op s').1)

theorem Upholds.stable {D : Discipline exec E α} {C : σ → Op → Prop}
    {Q : Except E α → Prop} {p : Prog Op Res E α} {s s' : σ} (h : Upholds D C Q p s)
    (hr : D.rely s s') : Upholds D C Q p s' := by
  cases p with
  | done a => exact h
  | fail e => exact h
  | await op k => exact fun s'' hi hr' => h s'' hi (D.trans _ _ _ hr hr')

/-- Along every permitted schedule of an orderly pool a call upholds what it upheld at
    its start. -/
theorem Upholds.run {D : Discipline exec E α} {C : σ → Op → Prop} {Q : Except E α → Prop}
    {c : Pool Op Res E α σ} (hc : Orderly D c) {i : Nat} {p : Prog Op Res E α}
    (hi : c.calls[i]? = some p) (hp : Upholds D C Q p c.shared) {l : List (Nat × Ω)}
    (hl : Meets exec (OnOp D.granted) c l) {q : Prog Op Res E α}
    (hq : (run exec c l).calls[i]? = some q) :
    Upholds D C Q q (run exec c l).shared := by
  induction l generalizing c p with
  | nil =>
      rw [run_nil, hi] at hq
      rw [← Option.some.inj hq]
      exact hp
  | cons hd rest ih =>
      obtain ⟨j, ω⟩ := hd
      obtain ⟨hc', hr⟩ := hc.step hl.1 ω
      by_cases hij : i = j
      · subst hij
        cases p with
        | done a =>
            refine ih hc' ?_ (hp.stable hr) hl.2 hq
            exact run_calls_finished exec hi rfl [(i, ω)]
        | fail e =>
            refine ih hc' ?_ (hp.stable hr) hl.2 hq
            exact run_calls_finished exec hi rfl [(i, ω)]
        | await op k =>
            refine ih hc' (step_calls_self exec hi ω) ?_ hl.2 hq
            rw [step_await exec hi]
            exact (hp c.shared hc.inv (D.refl _)).2 (hl.1 op k hi) ω
      · refine ih hc' ?_ (hp.stable hr) hl.2 hq
        rw [step_calls_ne exec c ω hij]
        exact hi

/-- So at each of its steps the operation meets `C`. -/
theorem Upholds.step {D : Discipline exec E α} {C : σ → Op → Prop} {Q : Except E α → Prop}
    {c : Pool Op Res E α σ} (hc : Orderly D c) {i : Nat} {p : Prog Op Res E α}
    (hi : c.calls[i]? = some p) (hp : Upholds D C Q p c.shared) {l₁ l₂ : List (Nat × Ω)}
    {ω : Ω} (hl : Meets exec (OnOp D.granted) c (l₁ ++ (i, ω) :: l₂)) {op : Op}
    {k : Res op → Prog Op Res E α}
    (hop : (Interleaving.run exec c l₁).calls[i]? = some (.await op k)) :
    C (Interleaving.run exec c l₁).shared op := by
  have hl₁ := ((meets_append exec _ c l₁ _).mp hl).1
  have h := Upholds.run hc hi hp hl₁ hop
  exact (h _ (follows_run hc hl₁).1.inv (D.refl _)).1

/-- Every operation of the program is of the kind `Q`, whatever the answers. -/
def OnlyIssues (Q : Op → Prop) : Prog Op Res E α → Prop
  | .done _ => True
  | .fail _ => True
  | .await op k => Q op ∧ ∀ r, OnlyIssues Q (k r)

/-- One operation, and what follows its answer. -/
theorem OnlyIssues.await {Q : Op → Prop} {op : Op} {k : Res op → Prog Op Res E α} (hop : Q op)
    (hk : ∀ r, OnlyIssues Q (k r)) : OnlyIssues Q (.await op k) := ⟨hop, hk⟩

theorem OnlyIssues.bind {β : Type} {Q : Op → Prop} {p : Prog Op Res E α}
    {f : α → Prog Op Res E β} (hp : OnlyIssues Q p) (hf : ∀ a, OnlyIssues Q (f a)) :
    OnlyIssues Q (p >>= f) := by
  induction p with
  | done a => exact hf a
  | fail e => trivial
  | await op k ih => exact ⟨hp.1, fun r => ih r (hp.2 r)⟩

theorem OnlyIssues.mono {Q Q' : Op → Prop} {p : Prog Op Res E α} (h : OnlyIssues Q p)
    (hQ : ∀ op, Q op → Q' op) : OnlyIssues Q' p := by
  induction p with
  | done a => trivial
  | fail e => trivial
  | await op k ih => exact ⟨hQ op h.1, fun r => ih r (h.2 r)⟩

/-- A program of operations that nothing is owed for. -/
theorem OnlyIssues.follows {D : Discipline exec E α} {Q : Op → Prop}
    (hQ : ∀ s op k, Q op → D.owes s (.await op k)) (hdone : ∀ s a, D.owes s (.done a))
    (hfail : ∀ s e, D.owes s (.fail e)) {p : Prog Op Res E α} (h : OnlyIssues Q p)
    (s : σ) : Follows D p s := by
  induction p generalizing s with
  | done a => exact fun s' _ _ => hdone s' a
  | fail e => exact fun s' _ _ => hfail s' e
  | await op k ih =>
      intro s' _ _
      exact ⟨hQ s' op k h.1, fun _ ω => ih _ (h.2 _) _⟩

/-- The same, with more of the program to come. -/
theorem OnlyIssues.follows_bind_returns {β : Type} {D : Discipline exec E α}
    {Q : Op → Prop} {R : β → Prop} (hQ : ∀ s op k, Q op → D.owes s (.await op k))
    (hfail : ∀ s e, D.owes s (.fail e)) (hgrant : ∀ s op, D.granted s op)
    {p : Prog Op Res E β} (h : OnlyIssues Q p) (hR : Returns R p)
    {g : β → Prog Op Res E α} (s : σ)
    (hg : ∀ a s', R a → D.rely s s' → Follows D (g a) s') : Follows D (p >>= g) s := by
  induction p generalizing s with
  | done a => exact hg a s hR (D.refl s)
  | fail e => exact fun s' _ _ => hfail s' e
  | await op k ih =>
      intro s' hi hr
      have howes : D.owes s' (.await op fun r => k r >>= g) := hQ s' op _ h.1
      refine ⟨howes, fun _ ω => ih _ (h.2 _) (hR _) _ ?_⟩
      intro a s'' ha hr'
      have hstep := (D.keep ω op _ s' hi howes (hgrant s' op)).2
      exact hg a s'' ha (D.trans _ _ _ hr (D.trans _ _ _ hstep hr'))

theorem OnlyIssues.follows_bind {β : Type} {D : Discipline exec E α} {Q : Op → Prop}
    (hQ : ∀ s op k, Q op → D.owes s (.await op k)) (hfail : ∀ s e, D.owes s (.fail e))
    (hgrant : ∀ s op, D.granted s op) {p : Prog Op Res E β} (h : OnlyIssues Q p)
    {g : β → Prog Op Res E α} (s : σ)
    (hg : ∀ a s', D.rely s s' → Follows D (g a) s') : Follows D (p >>= g) s :=
  h.follows_bind_returns hQ hfail hgrant (returns_any p) s fun a s' _ => hg a s'

/-- A program whose operations all keep `I`, run alone. -/
theorem OnlyIssues.ensures {Q : Op → Prop} {I : σ → Prop} {R : α → Prop}
    (hkeep : ∀ ω op s, Q op → I s → I (exec ω op s).1) {p : Prog Op Res E α}
    (hQ : OnlyIssues Q p) (hR : Returns R p) {s : σ} (hI : I s) :
    Ensures exec (fun r s' => I s' ∧ ∀ a, r = .ok a → R a) p s := by
  induction p generalizing s with
  | done a =>
      refine ⟨hI, ?_⟩
      intro a' ha
      rw [← Except.ok.inj ha]
      exact hR
  | fail e => exact ⟨hI, fun a ha => by cases ha⟩
  | await op k ih => exact fun ω => ih _ (hQ.2 _) (hR _) (hkeep ω op s hQ.1 hI)

/-- A program whose operations need nothing, under a bargain. -/
theorem OnlyIssues.upholds {D : Discipline exec E α} {C : σ → Op → Prop}
    {Q : Except E α → Prop} {K : Op → Prop} {R : α → Prop} {p : Prog Op Res E α}
    (h : OnlyIssues K p) (hC : ∀ s op, K op → C s op) (hR : Returns R p)
    (hok : ∀ a, R a → Q (.ok a)) (herr : ∀ e, Q (.error e)) (s : σ) :
    Upholds D C Q p s := by
  induction p generalizing s with
  | done a => exact hok a hR
  | fail e => exact herr e
  | await op k ih =>
      exact fun s' _ _ => ⟨hC s' op h.1, fun _ ω => ih _ (h.2 _) (hR _) _⟩

/-- The same, with more of the program to come. -/
theorem OnlyIssues.upholds_bind {β : Type} {D : Discipline exec E α} {C : σ → Op → Prop}
    {Q : Except E α → Prop} {K : Op → Prop} {p : Prog Op Res E β} (h : OnlyIssues K p)
    (hC : ∀ s op, K op → C s op) (hrely : ∀ ω s op, K op → D.rely s (exec ω op s).1)
    (herr : ∀ e, Q (.error e)) {g : β → Prog Op Res E α} (s : σ)
    (hg : ∀ a s', D.rely s s' → Upholds D C Q (g a) s') : Upholds D C Q (p >>= g) s := by
  induction p generalizing s with
  | done a => exact hg a s (D.refl s)
  | fail e => exact herr e
  | await op k ih =>
      intro s' _ hr
      refine ⟨hC s' op h.1, fun _ ω => ih _ (h.2 _) _ ?_⟩
      intro a s'' hr'
      exact hg a s'' (D.trans _ _ _ hr (D.trans _ _ _ (hrely ω s' op h.1) hr'))

/-! ## Programs that cannot throw -/

variable (exec)

/-- Whatever the world answers while `C` is met, the program does not end in an
    exception. -/
def NeverFails (C : σ → Op → Prop) : Prog Op Res E α → Prop
  | .done _ => True
  | .fail _ => False
  | .await op k => ∀ ω s, C s op → NeverFails C (k (exec ω op s).2)

/-- Whatever the world answers while `C` is met, the program throws nothing outside
    `X`, and nothing at all once it has issued a marked operation. -/
def FailsBefore (C : σ → Op → Prop) (P : Op → Prop) (X : E → Prop) :
    Prog Op Res E α → Prop
  | .done _ => True
  | .fail e => X e
  | .await op k => ∀ ω s, C s op →
      (P op → NeverFails exec C (k (exec ω op s).2)) ∧
        (¬ P op → FailsBefore C P X (k (exec ω op s).2))

variable {exec}

theorem NeverFails.bind {β : Type} {C : σ → Op → Prop} {p : Prog Op Res E α}
    {f : α → Prog Op Res E β} (hp : NeverFails exec C p)
    (hf : ∀ a, NeverFails exec C (f a)) : NeverFails exec C (p >>= f) := by
  induction p with
  | done a => exact hf a
  | fail e => exact nomatch hp
  | await op k ih => exact fun ω s hC => ih _ (hp ω s hC)

theorem FailsBefore.bind {β : Type} {C : σ → Op → Prop} {P : Op → Prop} {X : E → Prop}
    {p : Prog Op Res E α} {f : α → Prog Op Res E β} (hp : NeverFails exec C p)
    (hq : OnlyIssues (fun op => ¬ P op) p) (hf : ∀ a, FailsBefore exec C P X (f a)) :
    FailsBefore exec C P X (p >>= f) := by
  induction p with
  | done a => exact hf a
  | fail e => exact nomatch hp
  | await op k ih =>
      intro ω s hC
      exact ⟨fun hP => absurd hP hq.1, fun _ => ih _ (hp ω s hC) (hq.2 _)⟩

/-- A call that cannot throw has not thrown at the end of any permitted schedule. -/
theorem NeverFails.run {C : σ → Op → Prop} {c : Pool Op Res E α σ} {i : Nat}
    {p : Prog Op Res E α} (hi : c.calls[i]? = some p) (hp : NeverFails exec C p)
    {l : List (Nat × Ω)} (hl : Meets exec (OnOp C) c l) (e : E) :
    (run exec c l).calls[i]? ≠ some (.fail e) := by
  induction l generalizing c p with
  | nil =>
      intro h
      rw [run_nil, hi] at h
      rw [Option.some.inj h] at hp
      exact hp
  | cons hd rest ih =>
      obtain ⟨j, ω⟩ := hd
      by_cases hij : i = j
      · subst hij
        cases p with
        | done a =>
            intro h
            rw [run_calls_finished exec hi rfl ((i, ω) :: rest)] at h
            exact nomatch h
        | fail e' => exact nomatch hp
        | await op k =>
            exact ih (step_calls_self exec hi ω) (hp ω c.shared (hl.1 op k hi)) hl.2
      · exact ih (by rw [step_calls_ne exec c ω hij]; exact hi) hp hl.2

/-- **A failed call left no mark.**  If a call of this kind has thrown at the end of
    a permitted schedule, its exception is one of `X` and no step of it carried out a
    marked operation. -/
theorem FailsBefore.run {C : σ → Op → Prop} {P : Op → Prop} {X : E → Prop}
    {c : Pool Op Res E α σ} {i : Nat} {p : Prog Op Res E α}
    (hi : c.calls[i]? = some p) (hp : FailsBefore exec C P X p)
    {l : List (Nat × Ω)} (hl : Meets exec (OnOp C) c l) {e : E}
    (hfail : (run exec c l).calls[i]? = some (.fail e)) :
    X e ∧ ∀ l₁ ω l₂, l = l₁ ++ (i, ω) :: l₂ → ∀ op k,
      (Interleaving.run exec c l₁).calls[i]? = some (.await op k) → ¬ P op := by
  induction l generalizing c p with
  | nil =>
      rw [run_nil, hi] at hfail
      rw [Option.some.inj hfail] at hp
      refine ⟨hp, ?_⟩
      intro l₁ ω l₂ heq
      exact absurd heq (by simp)
  | cons hd rest ih =>
      obtain ⟨j, ω⟩ := hd
      by_cases hij : i = j
      · subst hij
        cases p with
        | done a =>
            rw [run_calls_finished exec hi rfl ((i, ω) :: rest)] at hfail
            exact nomatch hfail
        | fail e' =>
            have hstay := run_calls_finished exec hi rfl
            rw [hstay ((i, ω) :: rest)] at hfail
            injection hfail with hfail
            injection hfail with hfail
            subst hfail
            refine ⟨hp, ?_⟩
            intro l₁ ω' l₂ _ op k h
            rw [hstay l₁] at h
            exact nomatch h
        | await op k =>
            have hC := hl.1 op k hi
            have hself := step_calls_self exec hi ω
            by_cases hP : P op
            · -- the mark is set, so the call does not throw any more
              exact absurd hfail
                (NeverFails.run hself ((hp ω c.shared hC).1 hP) hl.2 e)
            · obtain ⟨hX, hrest⟩ := ih hself ((hp ω c.shared hC).2 hP) hl.2 hfail
              refine ⟨hX, ?_⟩
              intro l₁ ω' l₂ heq op' k' h
              cases l₁ with
              | nil =>
                  rw [run_nil, hi] at h
                  cases h
                  exact hP
              | cons hd₁ l₁ =>
                  injection heq with h1 h2
                  subst h1
                  exact hrest l₁ ω' l₂ h2 op' k' h
      · have hother : (step exec c j ω).calls[i]? = some p := by
          rw [step_calls_ne exec c ω hij]
          exact hi
        obtain ⟨hX, hrest⟩ := ih hother hp hl.2 hfail
        refine ⟨hX, ?_⟩
        intro l₁ ω' l₂ heq op' k' h
        cases l₁ with
        | nil =>
            injection heq with h1 _
            exact absurd (congrArg Prod.fst h1).symm hij
        | cons hd₁ l₁ =>
            injection heq with h1 h2
            subst h1
            exact hrest l₁ ω' l₂ h2 op' k' h

/-! ## Operations without which a program cannot return -/

/-- No way through the program returns without issuing a marked operation. -/
def MustIssue (P : Op → Prop) : Prog Op Res E α → Prop
  | .done _ => False
  | .fail _ => True
  | .await op k => P op ∨ ∀ r, MustIssue P (k r)

theorem MustIssue.bind {β : Type} {P : Op → Prop} {p : Prog Op Res E α}
    {f : α → Prog Op Res E β} (hf : ∀ a, MustIssue P (f a)) :
    MustIssue P (p >>= f) := by
  induction p with
  | done a => exact hf a
  | fail e => trivial
  | await op k ih => exact Or.inr fun r => ih r

theorem MustIssue.not_returned {P : Op → Prop} {p : Prog Op Res E α}
    (h : MustIssue P p) : p.returned = false := by
  cases p with
  | done a => exact nomatch h
  | fail e => rfl
  | await op k => rfl

/-- A call that has returned took a marked step. -/
theorem MustIssue.issued {P : Op → Prop} {c : Pool Op Res E α σ}
    {l : List (Nat × Ω)} {i : Nat}
    {p : Prog Op Res E α} (hi : c.calls[i]? = some p) (hp : MustIssue P p) {a : α}
    (hdone : (run exec c l).calls[i]? = some (.done a)) :
    ∃ l₁ ω l₂ op k, l = l₁ ++ (i, ω) :: l₂ ∧
      (run exec c l₁).calls[i]? = some (.await op k) ∧ P op := by
  induction l generalizing c p with
  | nil =>
      have hpa : p = .done a := Option.some.inj (hi.symm.trans hdone)
      rw [hpa] at hp
      exact nomatch hp
  | cons hd rest ih =>
      obtain ⟨j, ω⟩ := hd
      -- the step is found later in the schedule
      have hlater : ∀ p', (step exec c j ω).calls[i]? = some p' → MustIssue P p' →
          ∃ l₁ ω' l₂ op k, (j, ω) :: rest = l₁ ++ (i, ω') :: l₂ ∧
            (run exec c l₁).calls[i]? = some (.await op k) ∧ P op := by
        intro p' hp' hmust
        obtain ⟨l₁, ω', l₂, op, k, hl, hop, hP⟩ := ih hp' hmust hdone
        exact ⟨(j, ω) :: l₁, ω', l₂, op, k, by rw [hl]; rfl, hop, hP⟩
      by_cases hij : i = j
      · subst hij
        cases p with
        | done b => exact nomatch hp
        | fail e =>
            rw [run_calls_finished exec hi rfl ((i, ω) :: rest)] at hdone
            exact nomatch hdone
        | await op k =>
            rcases hp with hP | hp
            · exact ⟨[], ω, rest, op, k, rfl, hi, hP⟩
            · exact hlater _ (step_calls_self exec hi ω) (hp _)
      · exact hlater p ((step_calls_ne exec c ω hij).trans hi) hp

/-- Where the marked operation can only happen while `K` is false and makes `K`
    true for good, all calls but at most one still have it before them. -/
structure OneSpent (P : Op → Prop) (K : σ → Prop) (c : Pool Op Res E α σ) : Prop where
  unspent : ¬ K c.shared → ∀ p ∈ c.calls, MustIssue P p
  spent : ∃ i₀, ∀ (i : Nat) (p : Prog Op Res E α),
    i ≠ i₀ → c.calls[i]? = some p → MustIssue P p

theorem OneSpent.step {P : Op → Prop} {K : σ → Prop} {C : σ → Op → Prop}
    (hmark : ∀ ω op s, P op → C s op → ¬ K s ∧ K (exec ω op s).1)
    (hstay : ∀ ω op s, C s op → K s → K (exec ω op s).1)
    {c : Pool Op Res E α σ} {i : Nat} (ω : Ω) (hC : OnOp C c i)
    (h : OneSpent P K c) : OneSpent P K (step exec c i ω) := by
  rcases step_cases exec c i ω with h0 | ⟨op, k, hi, h0⟩
  · rw [h0]; exact h
  · have hc := hC op k hi
    have hmem : Prog.await op k ∈ c.calls := List.mem_of_getElem? hi
    have hself := step_calls_self exec hi ω
    by_cases hP : P op
    · -- the marked operation: nobody had issued it before
      obtain ⟨hK, hK'⟩ := hmark ω op c.shared hP hc
      have hall := h.unspent hK
      refine ⟨fun hn => absurd (by rw [h0]; exact hK') hn, i, ?_⟩
      intro j p hj hp
      rw [step_calls_ne exec c ω hj] at hp
      exact hall p (List.mem_of_getElem? hp)
    · -- any other operation leaves the duty with the call that moved
      have hkeep : MustIssue P (Prog.await op k) →
          MustIssue P (k (exec ω op c.shared).2) := by
        intro hm
        rcases hm with h1 | h1
        · exact absurd h1 hP
        · exact h1 _
      obtain ⟨i₀, hi₀⟩ := h.spent
      refine ⟨?_, i₀, ?_⟩
      · intro hn p hp
        have hK : ¬ K c.shared := by
          intro hk
          apply hn
          rw [h0]
          exact hstay ω op c.shared hc hk
        rcases step_mem exec hp with hm | ⟨op', k', hi', heq⟩
        · exact h.unspent hK p hm
        · rw [hi] at hi'
          cases hi'
          rw [heq]
          exact hkeep (h.unspent hK _ hmem)
      · intro j p hj hp
        by_cases hji : j = i
        · subst hji
          rw [hself] at hp
          cases hp
          exact hkeep (hi₀ j _ hj hi)
        · rw [step_calls_ne exec c ω hji] at hp
          exact hi₀ j p hj hp

/-- At most one call of the pool has returned. -/
def AtMostOneReturned (c : Pool Op Res E α σ) : Prop :=
  ∀ (i j : Nat) (p q : Prog Op Res E α), c.calls[i]? = some p → c.calls[j]? = some q →
    p.returned = true → q.returned = true → i = j

/-- **At most one returns.**  If every call must issue a marked operation before
    it returns, and along the schedule that operation is only carried out while
    `K` is false and makes `K` true for good, then at most one call has
    returned. -/
theorem at_most_one_returns {P : Op → Prop} {K : σ → Prop} {C : σ → Op → Prop}
    (hmark : ∀ ω op s, P op → C s op → ¬ K s ∧ K (exec ω op s).1)
    (hstay : ∀ ω op s, C s op → K s → K (exec ω op s).1)
    {c : Pool Op Res E α σ} (hc : ∀ p ∈ c.calls, MustIssue P p)
    {l : List (Nat × Ω)} (hl : Meets exec (OnOp C) c l) :
    AtMostOneReturned (run exec c l) := by
  intro i j p q hi hj hp hq
  have h0 : OneSpent P K c :=
    ⟨fun _ => hc, 0, fun i p _ hp => hc p (List.mem_of_getElem? hp)⟩
  have hfin : OneSpent P K (run exec c l) :=
    run_invariant exec (fun c i ω hC h => h.step hmark hstay ω hC) hl h0
  obtain ⟨i₀, hi₀⟩ := hfin.spent
  have key : ∀ n r, (run exec c l).calls[n]? = some r → r.returned = true → n = i₀ := by
    intro n r hn hr
    by_contra hne
    have := (hi₀ n r hne hn).not_returned
    rw [hr] at this
    exact nomatch this
  rw [key i p hi hp, key j q hj hq]

/-! ## Work that is still to come -/

/-- Every way through the program issues an operation of the kind `P`. -/
def WillIssue (P : Op → Prop) : Prog Op Res E α → Prop
  | .done _ => False
  | .fail _ => False
  | .await op k => P op ∨ ∀ r, WillIssue P (k r)

/-- Some call of the pool will issue one. -/
def Pending (P : Op → Prop) (c : Pool Op Res E α σ) : Prop :=
  ∃ p ∈ c.calls, WillIssue P p

/-- A step that is not of the kind leaves what was to come to come. -/
theorem Pending.step {P : Op → Prop} {c : Pool Op Res E α σ} (h : Pending P c) (i : Nat)
    (ω : Ω) (hop : ∀ op k, c.calls[i]? = some (.await op k) → ¬ P op) :
    Pending P (step exec c i ω) := by
  obtain ⟨p, hp, hw⟩ := h
  rcases step_cases exec c i ω with h0 | ⟨op, k, hi, h0⟩
  · rw [h0]
    exact ⟨p, hp, hw⟩
  · obtain ⟨j, hj⟩ := List.mem_iff_getElem?.mp hp
    by_cases hij : j = i
    · -- the call that moved owes it still
      subst hij
      rw [hi] at hj
      have hpe : Prog.await op k = p := Option.some.inj hj
      subst hpe
      rcases hw with hP | hw
      · exact absurd hP (hop op k hi)
      · exact ⟨_, List.mem_of_getElem? (step_calls_self exec hi ω), hw _⟩
    · refine ⟨p, ?_, hw⟩
      rw [← step_calls_ne exec c ω hij] at hj
      exact List.mem_of_getElem? hj

/-- At rest nothing is to come. -/
theorem Pending.not_finished {P : Op → Prop} {c : Pool Op Res E α σ}
    (h : Pending P c) : ∃ p ∈ c.calls, p.finished = false := by
  obtain ⟨p, hp, hw⟩ := h
  refine ⟨p, hp, ?_⟩
  cases p with
  | done a => exact nomatch hw
  | fail e => exact nomatch hw
  | await op k => rfl

end Interleaving
