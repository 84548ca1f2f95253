import TaskPlatform.Interleaving

/-! # What programs know

    A program acts on what it has been told.  `Learning` says what has to be known when
    an operation is issued, and what its answer teaches; whether a program keeps to it
    (`Informed`) can be read off the program alone.  Where what is known stays true
    whatever the others do, an invariant of the operations is an invariant of every
    interleaving of informed programs (`Sound.run`).  An invariant may speak of the past:
    a record of the answers beside the state changes nothing (`run_recording`). -/

namespace Interleaving

open AsyncProgram

variable {Op : Type} {Res : Op → Type} {X E α β σ Ω : Type}

/-- What an operation needs to be known, and what its answer teaches on top. -/
structure Learning (Op : Type) (Res : Op → Type) (X : Type) where
  needs : (X → Prop) → Op → Prop
  learns : (X → Prop) → (op : Op) → Res op → X → Prop

/-- Knowing `K`, the program issues nothing without knowing what it needs, and what it
    returns is as `Q` says. -/
def Informed (L : Learning Op Res X) (Q : α → (X → Prop) → Prop) :
    (X → Prop) → Prog Op Res E α → Prop
  | K, .done a => Q a K
  | _, .fail _ => True
  | K, .await op k =>
      L.needs K op ∧ ∀ r, Informed L Q (fun x => K x ∨ L.learns K op r x) (k r)

variable {L : Learning Op Res X}

theorem Informed.bind {Q : α → (X → Prop) → Prop} {Q' : β → (X → Prop) → Prop}
    {K : X → Prop} {p : Prog Op Res E α} {f : α → Prog Op Res E β} (hp : Informed L Q K p)
    (hf : ∀ a K', (∀ x, K x → K' x) → Q a K' → Informed L Q' K' (f a)) :
    Informed L Q' K (p >>= f) := by
  induction p generalizing K with
  | done a => exact hf a K (fun _ h => h) hp
  | fail e => trivial
  | await op k ih =>
      refine ⟨hp.1, fun r => ih r (hp.2 r) ?_⟩
      intro a K' hK' hQ
      exact hf a K' (fun x hx => hK' x (Or.inl hx)) hQ

theorem Informed.mono {Q Q' : α → (X → Prop) → Prop} {K : X → Prop} {p : Prog Op Res E α}
    (hp : Informed L Q K p) (hQ : ∀ a K', Q a K' → Q' a K') : Informed L Q' K p := by
  induction p generalizing K with
  | done a => exact hQ a K hp
  | fail e => trivial
  | await op k ih => exact ⟨hp.1, fun r => ih r (hp.2 r)⟩

theorem Informed.map {Q : β → (X → Prop) → Prop} {K : X → Prop} {p : Prog Op Res E α}
    {f : α → β} (hp : Informed L (fun a => Q (f a)) K p) : Informed L Q K (f <$> p) :=
  hp.bind fun _ _ _ hQ => hQ

/-- A program that keeps to a learning keeps to one that needs no more of what it is told,
    where `f` says what of the first comes to what of the second. -/
theorem Informed.coarsen {Y : Type} {L' : Learning Op Res Y} {f : (X → Prop) → Y → Prop}
    (hneeds : ∀ K K' op, (∀ y, f K y → K' y) → L.needs K op → L'.needs K' op)
    (hlearns : ∀ K K' op r, (∀ y, f K y → K' y) →
      ∀ y, f (fun x => K x ∨ L.learns K op r x) y → K' y ∨ L'.learns K' op r y)
    {Q : α → (X → Prop) → Prop} {p : Prog Op Res E α} {K : X → Prop} {K' : Y → Prop}
    (hK : ∀ y, f K y → K' y) (hp : Informed L Q K p) :
    Informed L' (fun _ _ => True) K' p := by
  induction p generalizing K K' with
  | done a => trivial
  | fail e => trivial
  | await op k ih =>
      exact ⟨hneeds K K' op hK hp.1, fun r => ih r (hlearns K K' op r hK) (hp.2 r)⟩

/-- Operations that need nothing. -/
theorem OnlyIssues.informed {F : Op → Prop} (hF : ∀ K op, F op → L.needs K op)
    {p : Prog Op Res E α} (hp : OnlyIssues F p) (K : X → Prop) :
    Informed L (fun _ _ => True) K p := by
  induction p generalizing K with
  | done a => trivial
  | fail e => trivial
  | await op k ih => exact ⟨hF K op hp.1, fun r => ih r (hp.2 r) _⟩

/-- The same, with more of the program to come. -/
theorem OnlyIssues.informed_bind {F : Op → Prop} (hF : ∀ K op, F op → L.needs K op)
    {Q : β → (X → Prop) → Prop} {p : Prog Op Res E α} (hp : OnlyIssues F p) {K : X → Prop}
    {f : α → Prog Op Res E β}
    (hf : ∀ a K', (∀ x, K x → K' x) → Informed L Q K' (f a)) :
    Informed L Q K (p >>= f) :=
  (hp.informed hF K).bind fun a K' hK' _ => hf a K' hK'

/-- Facts that the operations do not unmake, and an invariant that they keep, as far as
    they are carried out where `C` allows it. -/
structure Sound (exec : Ω → (op : Op) → σ → σ × Res op) (L : Learning Op Res X)
    (Fact : σ → X → Prop) (I : σ → Prop) (C : σ → Op → Prop) : Prop where
  keep : ∀ ω op s K, I s → (∀ x, K x → Fact s x) → L.needs K op → C s op →
    I (exec ω op s).1 ∧ (∀ x, Fact s x → Fact (exec ω op s).1 x) ∧
      ∀ x, L.learns K op (exec ω op s).2 x → Fact (exec ω op s).1 x

/-- **Interleavings of informed programs.**  The invariant holds after every permitted
    schedule. -/
theorem Sound.run {exec : Ω → (op : Op) → σ → σ × Res op} {Fact : σ → X → Prop}
    {I : σ → Prop} {C : σ → Op → Prop} (h : Sound exec L Fact I C)
    {c : Pool Op Res E α σ}
    (hc : ∀ p ∈ c.calls, Informed L (fun _ _ => True) (fun _ => False) p)
    {l : List (Nat × Ω)} (hl : Meets exec (OnOp C) c l) (hI : I c.shared) :
    I (run exec c l).shared := by
  let Inv (c : Pool Op Res E α σ) : Prop := I c.shared ∧
    ∀ p ∈ c.calls, ∃ K, (∀ x, K x → Fact c.shared x) ∧ Informed L (fun _ _ => True) K p
  have hstart : Inv c := ⟨hI, fun p hp => ⟨fun _ => False, fun _ hx => hx.elim, hc p hp⟩⟩
  have hend : Inv (Interleaving.run exec c l) := by
    refine run_invariant exec (I := Inv) ?_ hl hstart
    rintro c i ω hC ⟨hI, hcalls⟩
    rcases step_cases exec c i ω with h0 | ⟨op, k, hi, h0⟩
    · rw [h0]
      exact ⟨hI, hcalls⟩
    · rw [h0]
      obtain ⟨K, hK, hneeds, hrest⟩ := hcalls _ (List.mem_of_getElem? hi)
      obtain ⟨hI', hstay, hlearn⟩ := h.keep ω op c.shared K hI hK hneeds (hC op k hi)
      refine ⟨hI', ?_⟩
      intro p hp
      rcases List.mem_or_eq_of_mem_set hp with hp | rfl
      · -- a call that waits: nothing that it knows has become false
        obtain ⟨K', hK', hinf⟩ := hcalls p hp
        exact ⟨K', fun x hx => hstay x (hK' x hx), hinf⟩
      · refine ⟨_, ?_, hrest (exec ω op c.shared).2⟩
        rintro x (hx | hx)
        · exact hstay x (hK x hx)
        · exact hlearn x hx
  exact hend.1

/-! ## Records -/

section Records

variable {H : Type} (exec : Ω → (op : Op) → σ → σ × Res op)
  (note : (op : Op) → Res op → H → H)

/-- The operations, with a record of their answers that no program sees. -/
def recording (ω : Ω) (op : Op) (x : σ × H) : (σ × H) × Res op :=
  (((exec ω op x.1).1, note op (exec ω op x.1).2 x.2), (exec ω op x.1).2)

/-- The pool without the record. -/
def unrecorded (c : Pool Op Res E α (σ × H)) : Pool Op Res E α σ := ⟨c.shared.1, c.calls⟩

/-- A step is the same without the record. -/
theorem step_recording (c : Pool Op Res E α (σ × H)) (i : Nat) (ω : Ω) :
    unrecorded (step (recording exec note) c i ω) = step exec (unrecorded c) i ω := by
  have hcalls : (unrecorded c).calls[i]? = c.calls[i]? := rfl
  unfold step
  rw [hcalls]
  rcases h : c.calls[i]? with _ | (a | e | ⟨op, k⟩)
  · rfl
  · rfl
  · rfl
  · rfl

/-- **Recording changes nothing.** -/
theorem run_recording (c : Pool Op Res E α (σ × H)) (l : List (Nat × Ω)) :
    unrecorded (run (recording exec note) c l) = run exec (unrecorded c) l := by
  induction l generalizing c with
  | nil => rfl
  | cons e rest ih =>
      obtain ⟨i, ω⟩ := e
      rw [run_cons, run_cons, ih, step_recording]

end Records

end Interleaving
