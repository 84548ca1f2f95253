import TaskPlatform.Interleaving
import Mathlib.Data.List.Induction

/-! # Where the copies of a run come from

    Programs read something, hand copies of it on through places that they share (the
    keys of a cache), and act on a copy in a later step.  `origins` follows a schedule
    and says, of the copy that a call or a place holds, how many steps had been taken
    when it was read.

    What was so of a thing when it was read was so at the origin of every copy that is
    acted on (`gives_was`).  If it is not so any more, a step since the origin has
    changed it (`changed_since`). -/

namespace Interleaving

open AsyncProgram

variable {Op : Type} {Res : Op → Type} {E α β σ Ω κ X : Type}

/-! ## The steps of a schedule -/

/-- The operation that a program waits for. -/
def awaited : Prog Op Res E α → Option Op
  | .await op _ => some op
  | _ => none

section Steps

variable (exec : Ω → (op : Op) → σ → σ × Res op)

/-- The operation that step `n` of a schedule answers. -/
def issuedAt (c : Pool Op Res E α σ) (l : List (Nat × Ω)) (n : Nat) : Option Op :=
  l[n]?.bind fun e => (run exec c (l.take n)).calls[e.1]?.bind awaited

/-- A step from `o` on and before `n` carries out an operation of the kind `P`. -/
def OccursBetween (P : σ → Op → Prop) (c : Pool Op Res E α σ) (l : List (Nat × Ω))
    (o n : Nat) : Prop :=
  ∃ m < n, o ≤ m ∧ ∃ op ∈ issuedAt exec c l m, P (run exec c (l.take m)).shared op

instance (P : σ → Op → Prop) [∀ s op, Decidable (P s op)] (c : Pool Op Res E α σ)
    (l : List (Nat × Ω)) (o n : Nat) : Decidable (OccursBetween exec P c l o n) :=
  inferInstanceAs (Decidable (∃ m < n, o ≤ m ∧ ∃ op ∈ issuedAt exec c l m,
    P (run exec c (l.take m)).shared op))

variable {exec}

theorem awaited_eq_some {p : Prog Op Res E α} {op : Op} :
    awaited p = some op ↔ ∃ k, p = .await op k := by
  cases p with
  | done a => simp [awaited]
  | fail e => simp [awaited]
  | await op' k =>
      constructor
      · intro h
        cases h
        exact ⟨k, rfl⟩
      · rintro ⟨k', h⟩
        cases h
        rfl

theorem issuedAt_eq_some {c : Pool Op Res E α σ} {l : List (Nat × Ω)} {n : Nat} {op : Op} :
    issuedAt exec c l n = some op ↔ ∃ i ω k, l[n]? = some (i, ω) ∧
      (run exec c (l.take n)).calls[i]? = some (.await op k) := by
  unfold issuedAt
  constructor
  · intro h
    obtain ⟨⟨i, ω⟩, he, hp⟩ := Option.bind_eq_some_iff.mp h
    obtain ⟨p, hi, hop⟩ := Option.bind_eq_some_iff.mp hp
    obtain ⟨k, rfl⟩ := awaited_eq_some.mp hop
    exact ⟨i, ω, k, he, hi⟩
  · rintro ⟨i, ω, k, he, hi⟩
    rw [he]
    show ((run exec c (l.take n)).calls[i]?).bind awaited = some op
    rw [hi]
    rfl

/-- A step of a schedule that is cut behind it. -/
theorem take_succ_of {l : List (Nat × Ω)} {n : Nat} {e : Nat × Ω} (h : l[n]? = some e) :
    l.take (n + 1) = l.take n ++ [e] := by
  rw [List.take_add_one, h]
  rfl

/-- The state after a step. -/
theorem shared_after {c : Pool Op Res E α σ} {l : List (Nat × Ω)} {n : Nat} {op : Op}
    (h : issuedAt exec c l n = some op) : ∃ ω, (run exec c (l.take (n + 1))).shared
      = (exec ω op (run exec c (l.take n)).shared).1 := by
  obtain ⟨i, ω, k, he, hi⟩ := issuedAt_eq_some.mp h
  refine ⟨ω, ?_⟩
  rw [take_succ_of he, run_append, run_cons, run_nil, step_await exec hi]

/-- **Changed since.**  What was so after `o` steps and is not so after `n` was changed by
    a step in between, if only operations of the kind `P` change it. -/
theorem changed_since {K : σ → Prop} {P : σ → Op → Prop} {c : Pool Op Res E α σ}
    {l : List (Nat × Ω)} {o n : Nat}
    (hkeep : ∀ m op, issuedAt exec c l m = some op →
      ¬ P (run exec c (l.take m)).shared op → K (run exec c (l.take m)).shared →
        ∀ ω, K (exec ω op (run exec c (l.take m)).shared).1)
    (hon : o ≤ n) (hnl : n ≤ l.length) (h0 : K (run exec c (l.take o)).shared)
    (h1 : ¬ K (run exec c (l.take n)).shared) : OccursBetween exec P c l o n := by
  induction n with
  | zero =>
      have ho : o = 0 := by omega
      exact absurd (ho ▸ h0) h1
  | succ n ih =>
      have hon' : o ≤ n := by
        by_contra hlt
        have ho : o = n + 1 := by omega
        exact h1 (ho ▸ h0)
      by_cases hK : K (run exec c (l.take n)).shared
      · -- step `n` is the one
        have he : l[n]? = some l[n] := List.getElem?_eq_getElem (by omega)
        rw [take_succ_of he, run_append, run_cons, run_nil] at h1
        rcases step_cases exec (run exec c (l.take n)) l[n].1 l[n].2 with h | ⟨op, k, hi, h⟩
        · rw [h] at h1
          exact absurd hK h1
        · rw [h] at h1
          have hop : issuedAt exec c l n = some op := issuedAt_eq_some.mpr ⟨_, _, k, he, hi⟩
          refine ⟨n, Nat.lt_succ_self n, hon', op, hop, ?_⟩
          by_contra hP
          exact h1 (hkeep n op hop hP hK _)
      · obtain ⟨m, hmn, hom, hrest⟩ := ih hon' (by omega) hK
        exact ⟨m, by omega, hom, hrest⟩

/-- The steps of a schedule, by their places in it. -/
theorem meets_iff_issued {C : σ → Op → Prop} {c : Pool Op Res E α σ} {l : List (Nat × Ω)} :
    Meets exec (OnOp C) c l ↔
      ∀ n op, issuedAt exec c l n = some op → C (run exec c (l.take n)).shared op := by
  rw [meets_iff_split]
  constructor
  · intro h n op hn
    obtain ⟨i, ω, k, he, hi⟩ := issuedAt_eq_some.mp hn
    have hlt : n < l.length := (List.getElem?_eq_some_iff.mp he).1
    refine h (l.take n) i ω (l.drop (n + 1)) ?_ op k hi
    have hget : l[n] = (i, ω) := (List.getElem?_eq_some_iff.mp he).2
    rw [← hget, ← List.drop_eq_getElem_cons hlt, List.take_append_drop]
  · rintro h l₁ i ω l₂ rfl op k hi
    have htake : (l₁ ++ (i, ω) :: l₂).take l₁.length = l₁ := List.take_left
    have hop : issuedAt exec c (l₁ ++ (i, ω) :: l₂) l₁.length = some op := by
      refine issuedAt_eq_some.mpr ⟨i, ω, k, ?_, htake.symm ▸ hi⟩
      rw [List.getElem?_append_right (Nat.le_refl _), Nat.sub_self]
      rfl
    have hC := h l₁.length op hop
    rw [htake] at hC
    exact hC

end Steps

/-! ## Copies -/

/-- What an operation does with copies: it reads a new one, loads the one that a place
    holds, stores one in a place, or neither. -/
inductive Transfer (κ : Type) where
  | read
  | load (key : κ)
  | store (key : κ)
  | neither

/-- The operations as far as copies go: what a read or a load comes back with, and what a
    store or any other operation passes on. -/
structure Traffic (Op : Type) (Res : Op → Type) (κ X : Type) where
  transfer : Op → Transfer κ
  got : (op : Op) → Res op → Option X
  gives : Op → Option X

/-- The number of steps that had been taken when what a call, or a place, holds now was
    read. -/
structure Origins (κ : Type) where
  ofCall : Nat → Nat
  ofKey : κ → Nat

/-- Call `i` takes step `n`. -/
def Origins.step [DecidableEq κ] (o : Origins κ) (n i : Nat) : Transfer κ → Origins κ
  | .read => { o with ofCall := fun j => if j = i then n else o.ofCall j }
  | .load key => { o with ofCall := fun j => if j = i then o.ofKey key else o.ofCall j }
  | .store key => { o with ofKey := fun k => if k = key then o.ofCall i else o.ofKey k }
  | .neither => o

/-- What a call holds after an answer. -/
def Traffic.after (T : Traffic Op Res κ X) (x : Option X) (op : Op) (r : Res op) : Option X :=
  match T.transfer op with
  | .read => T.got op r
  | .load _ => T.got op r
  | _ => x

/-- Holding `x`, the program passes on nothing but what it holds. -/
def PassesOn (T : Traffic Op Res κ X) : Option X → Prog Op Res E α → Prop
  | _, .done _ => True
  | _, .fail _ => True
  | x, .await op k =>
      (∀ y, T.gives op = some y → x = some y) ∧ ∀ r, PassesOn T (T.after x op r) (k r)

section PassesOn

variable {T : Traffic Op Res κ X}

/-- Operations that leave the copy alone. -/
def Traffic.Idle (T : Traffic Op Res κ X) (op : Op) : Prop :=
  T.transfer op = .neither ∧ T.gives op = none

theorem PassesOn.idle {x : Option X} {op : Op} {k : Res op → Prog Op Res E α}
    (h : T.Idle op) (hk : ∀ r, PassesOn T x (k r)) : PassesOn T x (.await op k) := by
  constructor
  · intro y hy
    rw [h.2] at hy
    cases hy
  · intro r
    have hafter : T.after x op r = x := by simp only [Traffic.after, h.1]
    rw [hafter]
    exact hk r

theorem OnlyIssues.passesOn_bind {x : Option X} {p : Prog Op Res E β}
    (hp : OnlyIssues T.Idle p) {f : β → Prog Op Res E α} (hf : ∀ b, PassesOn T x (f b)) :
    PassesOn T x (p >>= f) := by
  induction p with
  | done b => exact hf b
  | fail e => trivial
  | await op k ih => exact .idle hp.1 fun r => ih r (hp.2 r)

/-- A program that passes nothing on. -/
theorem OnlyIssues.passesOn_of_givesNothing {Q : Op → Prop}
    (hQ : ∀ op, Q op → T.gives op = none)
    {x : Option X} {p : Prog Op Res E α} (hp : OnlyIssues Q p) : PassesOn T x p := by
  induction p generalizing x with
  | done a => trivial
  | fail e => trivial
  | await op k ih =>
      refine ⟨?_, fun r => ih r (hp.2 r)⟩
      intro y hy
      rw [hQ op hp.1] at hy
      cases hy

end PassesOn

/-! ## Origins along a schedule -/

section Origins

variable [DecidableEq κ] (exec : Ω → (op : Op) → σ → σ × Res op)
    (T : Traffic Op Res κ X)

/-- The origins after some steps more, of which the first is step `n`. -/
def originsFrom : Pool Op Res E α σ → Nat → Origins κ → List (Nat × Ω) → Origins κ
  | _, _, o, [] => o
  | c, n, o, (i, ω) :: rest =>
      originsFrom (step exec c i ω) (n + 1)
        ((c.calls[i]?.bind awaited).elim o fun op => o.step n i (T.transfer op)) rest

/-- The origins after a schedule.  What is there at the start counts as read then. -/
def origins (c : Pool Op Res E α σ) (l : List (Nat × Ω)) : Origins κ :=
  originsFrom exec T c 0 ⟨fun _ => 0, fun _ => 0⟩ l

/-- The origin of what the call of step `n` holds when it takes that step. -/
def originAt (c : Pool Op Res E α σ) (l : List (Nat × Ω)) (n : Nat) : Nat :=
  l[n]?.elim 0 fun e => (origins exec T c (l.take n)).ofCall e.1

variable {exec T}

theorem originsFrom_concat (c : Pool Op Res E α σ) (n : Nat) (o : Origins κ)
    (l : List (Nat × Ω)) (i : Nat) (ω : Ω) :
    originsFrom exec T c n o (l ++ [(i, ω)])
      = ((run exec c l).calls[i]?.bind awaited).elim (originsFrom exec T c n o l)
          fun op => (originsFrom exec T c n o l).step (n + l.length) i (T.transfer op) := by
  induction l generalizing c n o with
  | nil => rfl
  | cons hd rest ih =>
      obtain ⟨j, ω'⟩ := hd
      have hlength : n + ((j, ω') :: rest).length = n + 1 + rest.length := by
        rw [List.length_cons]
        omega
      rw [hlength]
      exact ih (step exec c j ω') (n + 1) _

/-- A step that answers nothing. -/
theorem origins_concat_idle {c : Pool Op Res E α σ} {l : List (Nat × Ω)} {i : Nat} {ω : Ω}
    (h : (run exec c l).calls[i]?.bind awaited = none) :
    origins exec T c (l ++ [(i, ω)]) = origins exec T c l := by
  rw [origins, originsFrom_concat, h]
  rfl

theorem origins_concat_await {c : Pool Op Res E α σ} {l : List (Nat × Ω)} {i : Nat} {ω : Ω}
    {op : Op} {k : Res op → Prog Op Res E α}
    (h : (run exec c l).calls[i]? = some (.await op k)) :
    origins exec T c (l ++ [(i, ω)])
      = (origins exec T c l).step l.length i (T.transfer op) := by
  rw [origins, originsFrom_concat, h, Nat.zero_add]
  rfl

/-- What holds of a thing when it is read, and of what the places hold when they are
    loaded. -/
structure Faithful (exec : Ω → (op : Op) → σ → σ × Res op) (T : Traffic Op Res κ X)
    (Place : σ → κ → X → Prop) (P : σ → X → Prop) : Prop where
  read : ∀ ω op s x, T.transfer op = .read → T.got op (exec ω op s).2 = some x → P s x
  load : ∀ ω op s key x, T.transfer op = .load key →
    T.got op (exec ω op s).2 = some x → Place s key x
  store : ∀ ω op s key x, T.transfer op = .store key → Place (exec ω op s).1 key x →
    T.gives op = some x
  keep : ∀ ω op s key x, T.transfer op ≠ .store key → Place (exec ω op s).1 key x →
    Place s key x

/-- Every copy is of a thing that was so at its origin. -/
structure Held (exec : Ω → (op : Op) → σ → σ × Res op) (T : Traffic Op Res κ X)
    (Place : σ → κ → X → Prop) (P : σ → X → Prop) (c : Pool Op Res E α σ)
    (l : List (Nat × Ω)) : Prop where
  calls : ∀ i p, (run exec c l).calls[i]? = some p → ∃ x, PassesOn T x p ∧
    (origins exec T c l).ofCall i ≤ l.length ∧
      ∀ y, x = some y → P (run exec c (l.take ((origins exec T c l).ofCall i))).shared y
  keys : ∀ key, (origins exec T c l).ofKey key ≤ l.length ∧
    ∀ y, Place (run exec c l).shared key y →
      P (run exec c (l.take ((origins exec T c l).ofKey key))).shared y

variable {Place : σ → κ → X → Prop} {P : σ → X → Prop}

/-- One step keeps it so. -/
theorem Held.concat (hT : Faithful exec T Place P) {c : Pool Op Res E α σ}
    {l : List (Nat × Ω)} (h : Held exec T Place P c l) (i : Nat) (ω : Ω) :
    Held exec T Place P c (l ++ [(i, ω)]) := by
  have hlength : (l ++ [(i, ω)]).length = l.length + 1 := by simp
  have hearlier : ∀ n, n ≤ l.length → (l ++ [(i, ω)]).take n = l.take n :=
    fun n hn => List.take_append_of_le_length hn
  have hrun : run exec c (l ++ [(i, ω)]) = step exec (run exec c l) i ω := by
    rw [run_append, run_cons, run_nil]
  cases hop : (run exec c l).calls[i]?.bind awaited with
  | none =>
      -- nothing was awaited, and nothing happens
      have hstay : step exec (run exec c l) i ω = run exec c l := by
        rcases step_cases exec (run exec c l) i ω with h0 | ⟨op, k, hi, -⟩
        · exact h0
        · rw [hi] at hop
          cases hop
      have horigins := origins_concat_idle (T := T) (ω := ω) hop
      constructor
      · intro j p hp
        rw [hrun, hstay] at hp
        obtain ⟨x, hx, hle, hP⟩ := h.calls j p hp
        refine ⟨x, hx, ?_, ?_⟩
        · rw [horigins, hlength]
          omega
        · rw [horigins, hearlier _ hle]
          exact hP
      · intro key
        obtain ⟨hle, hP⟩ := h.keys key
        refine ⟨?_, ?_⟩
        · rw [horigins, hlength]
          omega
        · rw [horigins, hearlier _ hle, hrun, hstay]
          exact hP
  | some op =>
      obtain ⟨p₀, hi, hawaits⟩ := Option.bind_eq_some_iff.mp hop
      obtain ⟨k, rfl⟩ := awaited_eq_some.mp hawaits
      have horigins := origins_concat_await (T := T) (ω := ω) hi
      obtain ⟨x₀, hpass, hle₀, hP₀⟩ := h.calls i _ hi
      have hshared : (step exec (run exec c l) i ω).shared
          = (exec ω op (run exec c l).shared).1 := by rw [step_await exec hi]
      constructor
      · intro j p hp
        rw [hrun] at hp
        by_cases hij : j = i
        · -- the call that moved
          subst hij
          rw [step_calls_self exec hi] at hp
          cases hp
          refine ⟨T.after x₀ op (exec ω op (run exec c l).shared).2, hpass.2 _, ?_⟩
          rw [horigins, hlength]
          cases htransfer : T.transfer op with
          | read =>
              simp only [Origins.step, if_true, Traffic.after, htransfer]
              refine ⟨by omega, ?_⟩
              intro y hy
              rw [List.take_left]
              exact hT.read ω op _ y htransfer hy
          | load key =>
              obtain ⟨hlek, hPk⟩ := h.keys key
              simp only [Origins.step, if_true, Traffic.after, htransfer]
              refine ⟨by omega, ?_⟩
              intro y hy
              rw [hearlier _ hlek]
              exact hPk y (hT.load ω op _ key y htransfer hy)
          | store key =>
              simp only [Origins.step, Traffic.after, htransfer]
              refine ⟨by omega, ?_⟩
              rw [hearlier _ hle₀]
              exact hP₀
          | neither =>
              simp only [Origins.step, Traffic.after, htransfer]
              refine ⟨by omega, ?_⟩
              rw [hearlier _ hle₀]
              exact hP₀
        · rw [step_calls_ne exec _ ω hij] at hp
          obtain ⟨x, hx, hle, hP⟩ := h.calls j p hp
          have hsame : (origins exec T c (l ++ [(i, ω)])).ofCall j
              = (origins exec T c l).ofCall j := by
            rw [horigins]
            cases T.transfer op <;> simp only [Origins.step, if_neg hij]
          refine ⟨x, hx, ?_, ?_⟩
          · rw [hsame, hlength]
            omega
          · rw [hsame, hearlier _ hle]
            exact hP
      · intro key
        obtain ⟨hle, hP⟩ := h.keys key
        by_cases hstore : T.transfer op = .store key
        · -- the place holds the copy of the call now
          have hsame : (origins exec T c (l ++ [(i, ω)])).ofKey key
              = (origins exec T c l).ofCall i := by
            rw [horigins, hstore]
            simp only [Origins.step, if_true]
          refine ⟨?_, ?_⟩
          · rw [hsame, hlength]
            omega
          · intro y hy
            rw [hrun, hshared] at hy
            rw [hsame, hearlier _ hle₀]
            exact hP₀ y (hpass.1 y (hT.store ω op _ key y hstore hy))
        · have hsame : (origins exec T c (l ++ [(i, ω)])).ofKey key
              = (origins exec T c l).ofKey key := by
            rw [horigins]
            cases htransfer : T.transfer op with
            | store key' =>
                have hne : key ≠ key' := by
                  rintro rfl
                  exact hstore htransfer
                simp only [Origins.step, if_neg hne]
            | _ => rfl
          refine ⟨?_, ?_⟩
          · rw [hsame, hlength]
            omega
          · intro y hy
            rw [hrun, hshared] at hy
            rw [hsame, hearlier _ hle]
            exact hP y (hT.keep ω op _ key y hstore hy)

/-- **Copies were so at their origins**, along every schedule. -/
theorem held_run (hT : Faithful exec T Place P) {c : Pool Op Res E α σ}
    (hc : ∀ p ∈ c.calls, PassesOn T none p)
    (hstart : ∀ key y, Place c.shared key y → P c.shared y) (l : List (Nat × Ω)) :
    Held exec T Place P c l := by
  induction l using List.reverseRecOn with
  | nil =>
      constructor
      · intro i p hp
        refine ⟨none, hc p (List.mem_of_getElem? hp), Nat.le_refl 0, ?_⟩
        intro y hy
        cases hy
      · exact fun key => ⟨Nat.le_refl 0, hstart key⟩
  | append_singleton l e ih =>
      obtain ⟨i, ω⟩ := e
      exact ih.concat hT i ω

/-- **What is passed on was so at its origin.** -/
theorem gives_was (hT : Faithful exec T Place P) {c : Pool Op Res E α σ}
    (hc : ∀ p ∈ c.calls, PassesOn T none p)
    (hstart : ∀ key y, Place c.shared key y → P c.shared y) {l : List (Nat × Ω)} {n : Nat}
    {op : Op} (hn : issuedAt exec c l n = some op) {y : X} (hy : T.gives op = some y) :
    originAt exec T c l n ≤ n ∧ P (run exec c (l.take (originAt exec T c l n))).shared y := by
  obtain ⟨i, ω, k, he, hi⟩ := issuedAt_eq_some.mp hn
  have hlt : n < l.length := (List.getElem?_eq_some_iff.mp he).1
  obtain ⟨x, hpass, hle, hP⟩ := (held_run hT hc hstart (l.take n)).calls i _ hi
  have horigin : originAt exec T c l n = (origins exec T c (l.take n)).ofCall i := by
    rw [originAt, he]
    rfl
  rw [List.length_take_of_le (Nat.le_of_lt hlt)] at hle
  refine ⟨horigin ▸ hle, ?_⟩
  have hwas := hP y (hpass.1 y hy)
  rw [List.take_take, Nat.min_eq_left hle] at hwas
  rw [horigin]
  exact hwas

end Origins

end Interleaving
