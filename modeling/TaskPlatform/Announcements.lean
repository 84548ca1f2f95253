import TaskPlatform.Interleaving

/-! # Programs that write once and then announce it

    Services that keep data and tell others about it often write first and announce
    afterwards, and pass on what an announcement throws.  The caller then sees an
    exception although the write has happened.

    `CommitsOnce` is that shape, whatever the operations are.  Such a program leaves no
    trace where it throws exactly when no announcement is refused, or its write had nothing
    to change (`leaves_no_trace_iff`).  `expand` puts a program in the place of every
    operation, so that what happens inside an operation can be looked at. -/

namespace AsyncProgram

open Interleaving

variable {Op Op' : Type} {Res : Op → Type} {Res' : Op' → Type} {E α β : Type}
    {σ Ω τ : Type}

/-- Every operation carried out by a program of its own. -/
def Prog.expand (h : (op : Op) → Prog Op' Res' E (Res op)) :
    Prog Op Res E α → Prog Op' Res' E α
  | .done a => .done a
  | .fail e => .fail e
  | .await op k => h op >>= fun r => (k r).expand h

theorem Prog.bind_assoc {γ : Type} (p : Prog Op Res E α) (f : α → Prog Op Res E β)
    (g : β → Prog Op Res E γ) : (p >>= f) >>= g = p >>= fun a => f a >>= g := by
  induction p with
  | done a => rfl
  | fail e => rfl
  | await op k ih => exact congrArg (Prog.await op) (funext ih)

theorem onlyIssues_expand {h : (op : Op) → Prog Op' Res' E (Res op)} {Q : Op → Prop}
    {Q' : Op' → Prop} (hQ : ∀ op, Q op → OnlyIssues Q' (h op)) {p : Prog Op Res E α}
    (hp : OnlyIssues Q p) : OnlyIssues Q' (p.expand h) := by
  induction p with
  | done a => trivial
  | fail e => trivial
  | await op k ih => exact (hQ op hp.1).bind fun r => ih r (hp.2 r)

theorem Prog.expand_bind (h : (op : Op) → Prog Op' Res' E (Res op)) (p : Prog Op Res E α)
    (f : α → Prog Op Res E β) :
    (p >>= f).expand h = p.expand h >>= fun a => (f a).expand h := by
  induction p with
  | done a => rfl
  | fail e => rfl
  | await op k ih =>
      show (h op >>= fun r => (k r >>= f).expand h)
        = (h op >>= fun r => (k r).expand h) >>= fun a => (f a).expand h
      rw [Prog.bind_assoc]
      exact congrArg (h op >>= ·) (funext ih)

/-- Where every operation is put in its own place, the program is as it was. -/
theorem Prog.expand_self {h : (op : Op) → Prog Op Res E (Res op)}
    (hself : ∀ op, h op = Prog.perform op) (p : Prog Op Res E α) : p.expand h = p := by
  induction p with
  | done a => rfl
  | fail e => rfl
  | await op k ih =>
      show h op >>= _ = _
      rw [hself op]
      exact congrArg (Prog.await op) (funext ih)

section Shape

variable (refused : (op : Op) → Res op → Prop)

variable (writes keeps : Op → Prop)

/-- The program throws after every refused answer and nowhere else, and touches nothing
    that is observed. -/
def Announces : Prog Op Res E α → Prop
  | .done _ => True
  | .fail _ => False
  | .await op k => keeps op ∧ ∀ r, (refused op r → ∃ e, k r = .fail e) ∧
      (¬ refused op r → Announces (k r))

/-- Up to its write the program only asks what cannot be refused; it throws if the write
    is refused, and then only announces. -/
def CommitsOnce : Prog Op Res E α → Prop
  | .done _ => True
  | .fail _ => True
  | .await op k =>
      (keeps op ∧ (∀ r, ¬ refused op r) ∧ ∀ r, CommitsOnce (k r)) ∨
      (writes op ∧ ∀ r, (refused op r → ∃ e, k r = .fail e) ∧
        (¬ refused op r → Announces refused keeps (k r)))

variable {refused writes keeps}

theorem Announces.bind {p : Prog Op Res E α} {f : α → Prog Op Res E β}
    (hp : Announces refused keeps p) (hf : ∀ a, Announces refused keeps (f a)) :
    Announces refused keeps (p >>= f) := by
  induction p with
  | done a => exact hf a
  | fail e => exact absurd hp not_false
  | await op k ih =>
      refine ⟨hp.1, ?_⟩
      intro r
      refine ⟨?_, fun hr => ih r ((hp.2 r).2 hr)⟩
      intro hr
      obtain ⟨e, he⟩ := (hp.2 r).1 hr
      refine ⟨e, ?_⟩
      show (k r >>= f) = .fail e
      rw [he]
      rfl

theorem Announces.expand_bind {refused : (op : Op') → Res' op → Prop} {keeps : Op' → Prop}
    {h : (op : Op) → Prog Op' Res' E (Res op)} {p : Prog Op Res E α}
    {f : α → Prog Op Res E β} (hp : Announces refused keeps (p.expand h))
    (hf : ∀ a, Announces refused keeps ((f a).expand h)) :
    Announces refused keeps ((p >>= f).expand h) := by
  rw [Prog.expand_bind]
  exact hp.bind hf

/-- Something told that nobody can refuse. -/
theorem Announces.told {op : Op} {k : Res op → Prog Op Res E α} (hk : keeps op)
    (hnever : ∀ r, ¬ refused op r) (h : ∀ r, Announces refused keeps (k r)) :
    Announces refused keeps (.await op k) :=
  ⟨hk, fun r => ⟨fun hr => absurd hr (hnever r), fun _ => h r⟩⟩

theorem Announces.onlyIssues {p : Prog Op Res E α} (hp : Announces refused keeps p) :
    OnlyIssues keeps p := by
  induction p with
  | done a => trivial
  | fail e => trivial
  | await op k ih =>
      refine ⟨hp.1, ?_⟩
      intro r
      by_cases hr : refused op r
      · obtain ⟨e, he⟩ := (hp.2 r).1 hr
        rw [he]
        trivial
      · exact ih r ((hp.2 r).2 hr)

/-- Questions first. -/
theorem CommitsOnce.after {p : Prog Op Res E α} {f : α → Prog Op Res E β}
    (hp : OnlyIssues (fun op => keeps op ∧ ∀ r, ¬ refused op r) p)
    (hf : ∀ a, CommitsOnce refused writes keeps (f a)) :
    CommitsOnce refused writes keeps (p >>= f) := by
  induction p with
  | done a => exact hf a
  | fail e => trivial
  | await op k ih => exact Or.inl ⟨hp.1.1, hp.1.2, fun r => ih r (hp.2 r)⟩

theorem CommitsOnce.returning {p : Prog Op Res E α} (hp : CommitsOnce refused writes keeps p)
    (f : α → β) : CommitsOnce refused writes keeps (p >>= fun a => .done (f a)) := by
  induction p with
  | done a => trivial
  | fail e => trivial
  | await op k ih =>
      rcases hp with ⟨hk, hnever, hnext⟩ | ⟨hw, hafter⟩
      · exact Or.inl ⟨hk, hnever, fun r => ih r (hnext r)⟩
      · refine Or.inr ⟨hw, ?_⟩
        intro r
        constructor
        · intro hr
          obtain ⟨e, he⟩ := (hafter r).1 hr
          refine ⟨e, ?_⟩
          show (k r >>= fun a => .done (f a)) = .fail e
          rw [he]
          rfl
        · exact fun hr => ((hafter r).2 hr).bind fun _ => trivial

end Shape

section Worlds

variable {exec : Ω → (op : Op) → σ → σ × Res op} {refused : (op : Op) → Res op → Prop}
  {writes keeps : Op → Prop}

/-- A program that throws after refused answers has thrown where one was. -/
theorem Announces.threw_iff {p : Prog Op Res E α} (hp : Announces refused keeps p)
    (ω : Nat → Ω) (s : σ) :
    (∃ e, (solo exec ω p s).2 = .error e) ↔
      ¬ Along exec (fun ω op s => keeps op → ¬ refused op (exec ω op s).2) ω p s := by
  induction p generalizing ω s with
  | done a =>
      constructor
      · rintro ⟨e, he⟩
        cases he
      · exact fun h => absurd trivial h
  | fail e => exact absurd hp not_false
  | await op k ih =>
      have hop := hp.2 (exec (ω 0) op s).2
      by_cases hr : refused op (exec (ω 0) op s).2
      · obtain ⟨e, he⟩ := hop.1 hr
        rw [solo_await, he]
        exact ⟨fun _ h => h.1 hp.1 hr, fun _ => ⟨e, rfl⟩⟩
      · rw [solo_await, ih _ (hop.2 hr)]
        constructor
        · exact fun h hall => h hall.2
        · exact fun h hrest => h ⟨fun _ => hr, hrest⟩

variable {T : σ → τ} (hkeeps : ∀ ω op s, keeps op → T (exec ω op s).1 = T s)

include hkeeps in
theorem OnlyIssues.keeps_solo {p : Prog Op Res E α} (h : OnlyIssues keeps p) (ω : Nat → Ω)
    (s : σ) : T (solo exec ω p s).1 = T s := by
  induction p generalizing ω s with
  | done a => rfl
  | fail e => rfl
  | await op k ih =>
      rw [solo_await, ih _ (h.2 _)]
      exact hkeeps (ω 0) op s h.1

theorem along_of_onlyIssues {C : Ω → Op → σ → Prop} {p : Prog Op Res E α}
    (h : OnlyIssues keeps p) (hC : ∀ ω op s, keeps op → C ω op s) (ω : Nat → Ω) (s : σ) :
    Along exec C ω p s := by
  induction p generalizing ω s with
  | done a => trivial
  | fail e => trivial
  | await op k ih => exact ⟨hC _ _ _ h.1, ih _ (h.2 _) _ _⟩

variable {idle : Op → σ → Prop} (hdisjoint : ∀ op, writes op → ¬ keeps op)
  (hrefused : ∀ ω op s, writes op → refused op (exec ω op s).2 → T (exec ω op s).1 = T s)
  (hidle : ∀ ω op s, writes op → ¬ refused op (exec ω op s).2 →
    (T (exec ω op s).1 = T s ↔ idle op s))

include hkeeps hdisjoint hrefused hidle in
/-- **No trace.**  A program that commits once, run alone: if it throws, what is observed
    is as before, exactly when no announcement is refused or the write has nothing to
    change. -/
theorem leaves_no_trace_iff {p : Prog Op Res E α} (hp : CommitsOnce refused writes keeps p)
    (ω : Nat → Ω) (s : σ) :
    ((∃ e, (solo exec ω p s).2 = .error e) → T (solo exec ω p s).1 = T s) ↔
      Along exec (fun ω op s => keeps op → ¬ refused op (exec ω op s).2) ω p s ∨
        Along exec (fun _ op s => writes op → idle op s) ω p s := by
  induction p generalizing ω s with
  | done a => exact ⟨fun _ => Or.inl trivial, fun _ _ => rfl⟩
  | fail e => exact ⟨fun _ => Or.inl trivial, fun _ _ => rfl⟩
  | await op k ih =>
      rcases hp with ⟨hk, hnever, hnext⟩ | ⟨hw, hafter⟩
      · -- before the write
        have hwrites : ¬ writes op := fun hw => hdisjoint op hw hk
        have h := ih _ (hnext (exec (ω 0) op s).2) (fun n => ω (n + 1)) (exec (ω 0) op s).1
        rw [hkeeps (ω 0) op s hk] at h
        rw [solo_await, h]
        constructor
        · rintro (hall | hall)
          · exact Or.inl ⟨fun _ => hnever _, hall⟩
          · exact Or.inr ⟨fun hw => absurd hw hwrites, hall⟩
        · rintro (hall | hall)
          · exact Or.inl hall.2
          · exact Or.inr hall.2
      · have hkeep : ¬ keeps op := hdisjoint op hw
        by_cases hr : refused op (exec (ω 0) op s).2
        · -- the write was refused, and the program ended there
          obtain ⟨e, he⟩ := (hafter _).1 hr
          rw [solo_await, he]
          refine ⟨fun _ => Or.inl ⟨fun hk => absurd hk hkeep, ?_⟩, fun _ _ => ?_⟩
          · rw [he]
            trivial
          · exact hrefused (ω 0) op s hw hr
        · have hannounces := (hafter _).2 hr
          have honly := hannounces.onlyIssues
          have hthrew : (∃ e, (solo exec (fun n => ω (n + 1)) (k (exec (ω 0) op s).2)
              (exec (ω 0) op s).1).2 = .error e) ↔ _ := hannounces.threw_iff _ _
          have hsame := OnlyIssues.keeps_solo hkeeps honly (fun n => ω (n + 1))
            (exec (ω 0) op s).1
          rw [solo_await, hthrew, hsame, hidle (ω 0) op s hw hr]
          constructor
          · intro h
            by_cases hall : Along exec
                (fun ω op s => keeps op → ¬ refused op (exec ω op s).2)
                (fun n => ω (n + 1)) (k (exec (ω 0) op s).2) (exec (ω 0) op s).1
            · exact Or.inl ⟨fun hk => absurd hk hkeep, hall⟩
            · refine Or.inr ⟨fun _ => h hall, ?_⟩
              exact along_of_onlyIssues honly
                (fun _ op _ hk hw => absurd hk (hdisjoint op hw)) _ _
          · rintro (hall | hall) hsome
            · exact absurd hall.2 hsome
            · exact hall.1 hw

end Worlds

end AsyncProgram
