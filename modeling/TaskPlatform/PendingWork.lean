import TaskPlatform.Interleaving

/-! # Work that follows an answer

    A call that has been told something owes a piece of work that it does later: some way
    down its program stands an operation of a kind `P`.  Not on every way, though: an answer
    that refuses an operation may end the call before.  `WillIssueIf R P` asks for `P` on the
    ways whose answers meet `R`, and where a schedule gives no other answers the work is
    done before the call has finished (`WillIssueIf.issued`). -/

namespace Interleaving

open AsyncProgram

variable {Op : Type} {Res : Op → Type} {E α σ Ω : Type}

/-- Every way through the program on which the answers meet `R` issues an operation of the
    kind `P`. -/
def WillIssueIf (R : (op : Op) → Res op → Prop) (P : Op → Prop) : Prog Op Res E α → Prop
  | .done _ => False
  | .fail _ => False
  | .await op k => P op ∨ ∀ r, R op r → WillIssueIf R P (k r)

/-- No way on which the answers meet `R` ends in an exception. -/
def ReturnsIf (R : (op : Op) → Res op → Prop) : Prog Op Res E α → Prop
  | .done _ => True
  | .fail _ => False
  | .await op k => ∀ r, R op r → ReturnsIf R (k r)

theorem ReturnsIf.bind {β : Type} {R : (op : Op) → Res op → Prop} {p : Prog Op Res E α}
    {f : α → Prog Op Res E β} (hp : ReturnsIf R p) (hf : ∀ a, ReturnsIf R (f a)) :
    ReturnsIf R (p >>= f) := by
  induction p with
  | done a => exact hf a
  | fail e => exact hp.elim
  | await op k ih => exact fun r hr => ih r (hp r hr)

/-- What comes after a program that returns. -/
theorem ReturnsIf.then_issue {β : Type} {R : (op : Op) → Res op → Prop} {P : Op → Prop}
    {p : Prog Op Res E α} {f : α → Prog Op Res E β} (hp : ReturnsIf R p)
    (hf : ∀ a, WillIssueIf R P (f a)) : WillIssueIf R P (p >>= f) := by
  induction p with
  | done a => exact hf a
  | fail e => exact hp.elim
  | await op k ih => exact Or.inr fun r hr => ih r (hp r hr)

variable {exec : Ω → (op : Op) → σ → σ × Res op}

/-- **The work is done.**  A call that owes an operation of the kind `P` issues it before it
    has finished, if all answers meet `R`. -/
theorem WillIssueIf.issued {R : (op : Op) → Res op → Prop} {P : Op → Prop}
    {C : σ → Op → Prop} (hC : ∀ ω op s, C s op → R op (exec ω op s).2)
    {c : Pool Op Res E α σ} {l : List (Nat × Ω)} {i : Nat} {p : Prog Op Res E α}
    (hi : c.calls[i]? = some p) (hp : WillIssueIf R P p) (hl : Meets exec (OnOp C) c l)
    (hrest : ∀ q, (run exec c l).calls[i]? = some q → q.finished = true) :
    ∃ l₁ ω l₂, l = l₁ ++ (i, ω) :: l₂ ∧
      ∃ op k, (run exec c l₁).calls[i]? = some (.await op k) ∧ P op := by
  induction l generalizing c p with
  | nil =>
      have hdone : p.finished = true := hrest p hi
      cases p with
      | done a => exact hp.elim
      | fail e => exact hp.elim
      | await op k => exact Bool.noConfusion hdone
  | cons e rest ih =>
      obtain ⟨j, ω⟩ := e
      obtain ⟨hfirst, hothers⟩ := hl
      by_cases hji : j = i
      · subst hji
        cases p with
        | done a => exact hp.elim
        | fail e => exact hp.elim
        | await op k =>
            rcases hp with hP | hlater
            · exact ⟨[], ω, rest, rfl, op, k, hi, hP⟩
            · have hanswer : R op (exec ω op c.shared).2 := hC ω op c.shared (hfirst op k hi)
              obtain ⟨l₁, ω', l₂, hsplit, hissued⟩ :=
                ih (step_calls_self exec hi ω) (hlater _ hanswer) hothers hrest
              exact ⟨(j, ω) :: l₁, ω', l₂, congrArg ((j, ω) :: ·) hsplit, hissued⟩
      · have hstay : (step exec c j ω).calls[i]? = some p := by
          rw [step_calls_ne exec c ω (Ne.symm hji)]
          exact hi
        obtain ⟨l₁, ω', l₂, hsplit, hissued⟩ := ih hstay hp hothers hrest
        exact ⟨(j, ω) :: l₁, ω', l₂, congrArg ((j, ω) :: ·) hsplit, hissued⟩

end Interleaving
