import TaskPlatform.Provenance

/-! # What the calls of a run have been answered

    A run is searched for the step in which a call got the answer that it acts on now:
    the answer without which it could not have returned (`MustObtain.obtained`), or one
    that taught it what it knows (`Informed.told`).  Where an answer can only be given
    once, no two calls that need it have both returned (`not_both_return`). -/

namespace Interleaving

open AsyncProgram

variable {Op : Type} {Res : Op → Type} {X E α σ Ω : Type}
variable {exec : Ω → (op : Op) → σ → σ × Res op}

/-- No way through the program returns without one of the marked answers. -/
def MustObtain (P : (op : Op) → Res op → Prop) : Prog Op Res E α → Prop
  | .done _ => False
  | .fail _ => True
  | .await op k => ∀ r, P op r ∨ MustObtain P (k r)

theorem MustObtain.bind {β : Type} {P : (op : Op) → Res op → Prop} {p : Prog Op Res E α}
    {f : α → Prog Op Res E β} (hf : ∀ a, MustObtain P (f a)) : MustObtain P (p >>= f) := by
  induction p with
  | done a => exact hf a
  | fail e => trivial
  | await op k ih => exact fun r => Or.inr (ih r)

/-- What leads a program from one place to the next is kept along a run, or found in it:
    either `I` still holds of the call, or some step of it was answered as marked. -/
theorem kept_or_answered {I : Prog Op Res E α → Prop} {P : (op : Op) → Res op → Prop}
    (hnext : ∀ op k, I (.await op k) → ∀ r, P op r ∨ I (k r)) {c : Pool Op Res E α σ}
    {l : List (Nat × Ω)} {i : Nat} {p q : Prog Op Res E α} (hp : c.calls[i]? = some p)
    (hI : I p) (hq : (run exec c l).calls[i]? = some q) :
    I q ∨ ∃ l₁ ω l₂ op k, l = l₁ ++ (i, ω) :: l₂ ∧
      (run exec c l₁).calls[i]? = some (.await op k) ∧
      P op (exec ω op (run exec c l₁).shared).2 := by
  induction l generalizing c p with
  | nil =>
      have hpq : p = q := Option.some.inj (hp.symm.trans hq)
      exact Or.inl (hpq ▸ hI)
  | cons hd rest ih =>
      obtain ⟨j, ω⟩ := hd
      -- a step found in the rest of the schedule is found in the schedule
      have hlater : ∀ p', (step exec c j ω).calls[i]? = some p' → I p' →
          I q ∨ ∃ l₁ ω' l₂ op k, (j, ω) :: rest = l₁ ++ (i, ω') :: l₂ ∧
            (run exec c l₁).calls[i]? = some (.await op k) ∧
            P op (exec ω' op (run exec c l₁).shared).2 := by
        intro p' hp' hI'
        rcases ih hp' hI' hq with hkept | ⟨l₁, ω', l₂, op, k, hl, hop, hP⟩
        · exact Or.inl hkept
        · exact Or.inr ⟨(j, ω) :: l₁, ω', l₂, op, k, by rw [hl]; rfl, hop, hP⟩
      by_cases hij : i = j
      · subst hij
        cases p with
        | done a => exact hlater _ (run_calls_finished exec hp rfl [(i, ω)]) hI
        | fail e => exact hlater _ (run_calls_finished exec hp rfl [(i, ω)]) hI
        | await op k =>
            rcases hnext op k hI (exec ω op c.shared).2 with hP | hI'
            · exact Or.inr ⟨[], ω, rest, op, k, rfl, hp, hP⟩
            · exact hlater _ (step_calls_self exec hp ω) hI'
      · exact hlater p ((step_calls_ne exec c ω hij).trans hp) hI

/-- A call that has returned was given a marked answer. -/
theorem MustObtain.obtained {P : (op : Op) → Res op → Prop} {c : Pool Op Res E α σ}
    {l : List (Nat × Ω)} {i : Nat} {p : Prog Op Res E α} (hi : c.calls[i]? = some p)
    (hp : MustObtain P p) {a : α} (hdone : (run exec c l).calls[i]? = some (.done a)) :
    ∃ l₁ ω l₂ op k, l = l₁ ++ (i, ω) :: l₂ ∧
      (run exec c l₁).calls[i]? = some (.await op k) ∧
      P op (exec ω op (run exec c l₁).shared).2 := by
  rcases kept_or_answered (I := MustObtain P) (fun _ _ h r => h r) hi hp hdone with hI | hP
  · exact hI.elim
  · exact hP

/-- Until it gets a marked answer the program issues operations of the kind `S` only. -/
def OnlyUntil (S : Op → Prop) (P : (op : Op) → Res op → Prop) : Prog Op Res E α → Prop
  | .done _ => True
  | .fail _ => True
  | .await op k => S op ∧ ∀ r, P op r ∨ OnlyUntil S P (k r)

theorem OnlyIssues.until_bind {β : Type} {S : Op → Prop} {P : (op : Op) → Res op → Prop}
    {p : Prog Op Res E α} (hp : OnlyIssues S p) {f : α → Prog Op Res E β}
    (hf : ∀ a, OnlyUntil S P (f a)) : OnlyUntil S P (p >>= f) := by
  induction p with
  | done a => exact hf a
  | fail e => trivial
  | await op k ih => exact ⟨hp.1, fun r => Or.inr (ih r (hp.2 r))⟩

/-- A call that issues another operation has got a marked answer before. -/
theorem OnlyUntil.answered {S : Op → Prop} {P : (op : Op) → Res op → Prop}
    {c : Pool Op Res E α σ} {l : List (Nat × Ω)} {i : Nat} {p : Prog Op Res E α}
    (hi : c.calls[i]? = some p) (hp : OnlyUntil S P p) {op : Op} {k : Res op → Prog Op Res E α}
    (hop : (run exec c l).calls[i]? = some (.await op k)) (hS : ¬ S op) :
    ∃ l₁ ω l₂ op' k', l = l₁ ++ (i, ω) :: l₂ ∧
      (run exec c l₁).calls[i]? = some (.await op' k') ∧
      P op' (exec ω op' (run exec c l₁).shared).2 := by
  rcases kept_or_answered (I := OnlyUntil S P) (fun _ _ h r => h.2 r) hi hp hop with hI | hP
  · exact absurd hI.1 hS
  · exact hP

/-- **Given once.**  If along the schedule a marked answer is only given while `K` is
    false and makes `K` true for good, no two calls that need one have both returned. -/
theorem not_both_return {P : (op : Op) → Res op → Prop} {K : σ → Prop}
    {C : σ → Op → Prop}
    (hmark : ∀ ω op s, C s op → P op (exec ω op s).2 → ¬ K s ∧ K (exec ω op s).1)
    (hstay : ∀ ω op s, C s op → K s → K (exec ω op s).1) {c : Pool Op Res E α σ}
    {l : List (Nat × Ω)} (hC : Meets exec (OnOp C) c l) {i j : Nat} (hij : i ≠ j)
    {p q : Prog Op Res E α} (hi : c.calls[i]? = some p) (hp : MustObtain P p)
    (hj : c.calls[j]? = some q) (hq : MustObtain P q) {a b : α}
    (ha : (run exec c l).calls[i]? = some (.done a))
    (hb : (run exec c l).calls[j]? = some (.done b)) : False := by
  have hsplit := (meets_iff_split exec (OnOp C) c l).mp hC
  -- after a marked answer `K` is true at every later place of the schedule
  have hlater : ∀ {n i₀ ω₀ op₀ k₀} {r n' n'' : List (Nat × Ω)}, l = n' ++ n'' →
      (run exec c n).calls[i₀]? = some (.await op₀ k₀) →
      P op₀ (exec ω₀ op₀ (run exec c n).shared).2 → n' = n ++ (i₀, ω₀) :: r →
      K (run exec c n').shared := by
    rintro n i₀ ω₀ op₀ k₀ r n' n'' hl hop₀ hP₀ rfl
    have hsplit₀ : l = n ++ (i₀, ω₀) :: (r ++ n'') := by rw [hl, List.append_assoc]; rfl
    have hK : K (step exec (run exec c n) i₀ ω₀).shared := by
      rw [step_await exec hop₀]
      exact (hmark _ _ _ (hsplit _ _ _ _ hsplit₀ _ _ hop₀) hP₀).2
    rw [hsplit₀, meets_append] at hC
    have hrest : Meets exec (OnOp C) (step exec (run exec c n) i₀ ω₀) r :=
      ((meets_append exec (OnOp C) _ r n'').mp hC.2.2).1
    rw [run_append, run_cons]
    refine run_invariant exec (I := fun c => K c.shared) ?_ hrest hK
    intro c i ω hD hc
    rcases step_cases exec c i ω with h0 | ⟨op, k, hop, h0⟩
    · rw [h0]; exact hc
    · rw [h0]; exact hstay ω op c.shared (hD op k hop) hc
  obtain ⟨l₁, ω, l₂, op, k, hl, hop, hP⟩ := hp.obtained hi ha
  obtain ⟨m₁, ω', m₂, op', k', hm, hop', hP'⟩ := hq.obtained hj hb
  -- of the two steps, the later one finds `K` true
  rcases List.append_eq_append_iff.mp (hl.symm.trans hm) with ⟨r, hm₁, hr⟩
    | ⟨r, hl₁, hr⟩
  · cases r with
    | nil =>
        injection hr with hhd _
        exact hij (congrArg Prod.fst hhd)
    | cons e r =>
        injection hr with hhd _
        subst hhd
        exact (hmark _ _ _ (hsplit _ _ _ _ hm _ _ hop') hP').1 (hlater hm hop hP hm₁)
  · cases r with
    | nil =>
        injection hr with hhd _
        exact hij (congrArg Prod.fst hhd).symm
    | cons e r =>
        injection hr with hhd _
        subst hhd
        exact (hmark _ _ _ (hsplit _ _ _ _ hl _ _ hop) hP).1 (hlater hl hop' hP' hl₁)

/-! ## What an informed call knows -/

section Informed

variable {L : Learning Op Res X}

/-- What a call knows it knew at the start, or one of its steps taught it. -/
theorem Informed.told {Q : α → (X → Prop) → Prop} {c : Pool Op Res E α σ}
    {l : List (Nat × Ω)} {i : Nat} {p q : Prog Op Res E α} {K₀ : X → Prop}
    (hp : c.calls[i]? = some p) (hinf : Informed L Q K₀ p)
    (hq : (run exec c l).calls[i]? = some q) :
    ∃ K, Informed L Q K q ∧ ∀ x, K x → K₀ x ∨ ∃ l₁ ω l₂ op k K',
      l = l₁ ++ (i, ω) :: l₂ ∧
      (run exec c l₁).calls[i]? = some (.await op k) ∧
      L.learns K' op (exec ω op (run exec c l₁).shared).2 x := by
  induction l generalizing c p K₀ with
  | nil =>
      have hpq : p = q := Option.some.inj (hp.symm.trans hq)
      exact ⟨K₀, hpq ▸ hinf, fun x hx => Or.inl hx⟩
  | cons hd rest ih =>
      obtain ⟨j, ω⟩ := hd
      by_cases hij : i = j
      · subst hij
        have hstay : ∀ p', (step exec c i ω).calls[i]? = some p' → Informed L Q K₀ p' →
            ∃ K, Informed L Q K q ∧ ∀ x, K x → K₀ x ∨ ∃ l₁ ω' l₂ op k K',
              (i, ω) :: rest = l₁ ++ (i, ω') :: l₂ ∧
              (run exec c l₁).calls[i]? = some (.await op k) ∧
              L.learns K' op (exec ω' op (run exec c l₁).shared).2 x := by
          intro p' hp' hinf'
          obtain ⟨K, hK, htold⟩ := ih hp' hinf' hq
          refine ⟨K, hK, ?_⟩
          intro x hx
          rcases htold x hx with h0 | ⟨l₁, ω', l₂, op, k, K', hl, hop, hlearn⟩
          · exact Or.inl h0
          · exact Or.inr ⟨(i, ω) :: l₁, ω', l₂, op, k, K', by rw [hl]; rfl, hop, hlearn⟩
        cases p with
        | done a => exact hstay _ (run_calls_finished exec hp rfl [(i, ω)]) hinf
        | fail e => exact hstay _ (run_calls_finished exec hp rfl [(i, ω)]) hinf
        | await op k =>
            obtain ⟨K, hK, htold⟩ := ih (step_calls_self exec hp ω) (hinf.2 _) hq
            refine ⟨K, hK, ?_⟩
            intro x hx
            rcases htold x hx with (h0 | hlearn)
              | ⟨l₁, ω', l₂, op', k', K', hl, hop, hlearn⟩
            · exact Or.inl h0
            · exact Or.inr ⟨[], ω, rest, op, k, K₀, rfl, hp, hlearn⟩
            · exact Or.inr
                ⟨(i, ω) :: l₁, ω', l₂, op', k', K', by rw [hl]; rfl, hop, hlearn⟩
      · obtain ⟨K, hK, htold⟩ := ih ((step_calls_ne exec c ω hij).trans hp) hinf hq
        refine ⟨K, hK, ?_⟩
        intro x hx
        rcases htold x hx with h0 | ⟨l₁, ω', l₂, op, k, K', hl, hop, hlearn⟩
        · exact Or.inl h0
        · exact Or.inr ⟨(j, ω) :: l₁, ω', l₂, op, k, K', by rw [hl]; rfl, hop, hlearn⟩

/-- **Interleavings of informed calls.**  After every permitted schedule the invariant
    holds, and all that a call knows is true. -/
theorem Sound.run_calls {Fact : σ → X → Prop} {I : σ → Prop} {C : σ → Op → Prop}
    (h : Sound exec L Fact I C) {Q : Nat → α → (X → Prop) → Prop} {c : Pool Op Res E α σ}
    (hc : ∀ i p, c.calls[i]? = some p → Informed L (Q i) (fun _ => False) p)
    {l : List (Nat × Ω)} (hl : Meets exec (OnOp C) c l) (hI : I c.shared) :
    I (Interleaving.run exec c l).shared ∧
      ∀ i p, (Interleaving.run exec c l).calls[i]? = some p →
        ∃ K, (∀ x, K x → Fact (Interleaving.run exec c l).shared x) ∧
          Informed L (Q i) K p := by
  let Inv (c : Pool Op Res E α σ) : Prop := I c.shared ∧ ∀ i p, c.calls[i]? = some p →
    ∃ K, (∀ x, K x → Fact c.shared x) ∧ Informed L (Q i) K p
  have hstart : Inv c :=
    ⟨hI, fun i p hp => ⟨fun _ => False, fun _ hx => hx.elim, hc i p hp⟩⟩
  refine run_invariant exec (I := Inv) ?_ hl hstart
  rintro c i ω hC ⟨hI, hcalls⟩
  rcases step_cases exec c i ω with h0 | ⟨op, k, hi, h0⟩
  · rw [h0]
    exact ⟨hI, hcalls⟩
  · obtain ⟨K, hK, hneeds, hrest⟩ := hcalls i _ hi
    obtain ⟨hI', hstay, hlearn⟩ := h.keep ω op c.shared K hI hK hneeds (hC op k hi)
    have hshared : (step exec c i ω).shared = (exec ω op c.shared).1 := by rw [h0]
    refine ⟨hshared ▸ hI', ?_⟩
    intro j p hp
    by_cases hij : j = i
    · subst hij
      rw [step_calls_self exec hi ω] at hp
      rw [← Option.some.inj hp]
      refine ⟨_, ?_, hrest (exec ω op c.shared).2⟩
      rw [hshared]
      rintro x (hx | hx)
      · exact hstay x (hK x hx)
      · exact hlearn x hx
    · rw [step_calls_ne exec c ω hij] at hp
      obtain ⟨K', hK', hinf⟩ := hcalls j p hp
      rw [hshared]
      exact ⟨K', fun x hx => hstay x (hK' x hx), hinf⟩

/-- At every step of a permitted schedule the invariant holds, and what the operation
    needs is known and true. -/
theorem Sound.meets {Fact : σ → X → Prop} {I : σ → Prop} {C : σ → Op → Prop}
    (h : Sound exec L Fact I C) {c : Pool Op Res E α σ}
    (hc : ∀ p ∈ c.calls, Informed L (fun _ _ => True) (fun _ => False) p)
    {l : List (Nat × Ω)} (hl : Meets exec (OnOp C) c l) (hI : I c.shared) :
    Meets exec (OnOp fun s op => I s ∧ ∃ K, (∀ x, K x → Fact s x) ∧
      L.needs K op) c l := by
  refine (meets_iff_split exec _ c l).mpr ?_
  intro l₁ i ω l₂ heq op k hop
  have hl₁ : Meets exec (OnOp C) c l₁ := by
    rw [heq] at hl
    exact ((meets_append exec (OnOp C) c l₁ _).mp hl).1
  obtain ⟨hI', hcalls⟩ := h.run_calls (Q := fun _ _ _ => True)
    (fun i p hp => hc p (List.mem_of_getElem? hp)) hl₁ hI
  obtain ⟨K, hK, hinf⟩ := hcalls i _ hop
  exact ⟨hI', K, hK, hinf.1⟩

end Informed

end Interleaving
