import Mathlib.Data.List.Induction
import TaskPlatform.EventRuns

/-! # Answers held under tags

    A client that holds what a service has answered, under the tags that each query provides,
    and drops it when it asks for a change that invalidates one of them.  Nothing else takes
    out an answer that has become wrong.  So where a held answer is no longer right, a change
    of the client's own has made it wrong and missed its tags (`held_or_missed`). -/

namespace TagCache

open EventRuns

/-- A service with its queries and changes, and the tags that tie them together. -/
structure Service (σ Ω Query Answer Change Tag : Type) where
  /-- The answer is right in a state. -/
  right : σ → Query → Answer → Prop
  ask : (Nat → Ω) → Query → σ → σ × Option Answer
  perform : (Nat → Ω) → Change → σ → σ
  provides : Query → List Tag
  invalidates : Change → List Tag
  /-- The first tag, invalidated, takes out the second, provided. -/
  covers : Tag → Tag → Bool

/-- The service, and what the client holds. -/
structure World (σ Query Answer : Type) where
  server : σ
  held : Query → Option Answer

/-- What may happen next. -/
inductive Event (Ω Query Change : Type) where
  /-- A query is shown: asked, unless its answer is held. -/
  | ask (q : Query) (ω : Nat → Ω)
  /-- Nobody shows the query any more, and the client lets go of its answer. -/
  | release (q : Query)
  | change (c : Change) (ω : Nat → Ω)

variable {σ Ω Query Answer Change Tag : Type} [DecidableEq Query]
  (S : Service σ Ω Query Answer Change Tag)

namespace Service

/-- The change makes the client drop what it holds for the query. -/
def drops (c : Change) (q : Query) : Bool :=
  (S.invalidates c).any fun t => (S.provides q).any fun provided => S.covers t provided

/-- One event. -/
def step (w : World σ Query Answer) : Event Ω Query Change → World σ Query Answer
  | .ask q ω =>
      match w.held q with
      | some _ => w
      | none =>
          let out := S.ask ω q w.server
          ⟨out.1, Function.update w.held q out.2⟩
  | .release q => ⟨w.server, Function.update w.held q none⟩
  | .change c ω =>
      ⟨S.perform ω c w.server, fun q => if S.drops c q = true then none else w.held q⟩

/-- A change that has made a held answer wrong, and has not dropped it. -/
structure Missed (w : World σ Query Answer) (c : Change) (ω : Nat → Ω) (q : Query)
    (a : Answer) : Prop where
  kept : S.drops c q = false
  held : w.held q = some a
  right : S.right w.server q a
  wrong : ¬ S.right (S.perform ω c w.server) q a

/-- The steps that a run may take: queries come back with what is right and make nothing
    wrong, and everything keeps the invariant. -/
structure Sound (inv : σ → Prop)
    (ok : World σ Query Answer → Event Ω Query Change → Prop) :
    Prop where
  asked : ∀ w q ω, inv w.server → ok w (.ask q ω) →
    (∀ a, (S.ask ω q w.server).2 = some a → S.right (S.ask ω q w.server).1 q a) ∧
      (∀ q' a, S.right w.server q' a → S.right (S.ask ω q w.server).1 q' a) ∧
      inv (S.ask ω q w.server).1
  performed : ∀ w c ω, inv w.server → ok w (.change c ω) → inv (S.perform ω c w.server)

variable {S} {inv : σ → Prop} {ok : World σ Query Answer → Event Ω Query Change → Prop}

theorem step_ask_held {w : World σ Query Answer} {q : Query} {a : Answer}
    (h : w.held q = some a) (ω : Nat → Ω) : S.step w (.ask q ω) = w := by
  show (match w.held q with | some _ => w | none => _) = w
  rw [h]

theorem step_ask_none {w : World σ Query Answer} {q : Query} (h : w.held q = none)
    (ω : Nat → Ω) :
    S.step w (.ask q ω)
      = ⟨(S.ask ω q w.server).1, Function.update w.held q (S.ask ω q w.server).2⟩ := by
  show (match w.held q with | some _ => w | none => _) = _
  rw [h]

theorem Sound.step (hS : S.Sound inv ok) {w : World σ Query Answer} {e : Event Ω Query Change}
    (hw : inv w.server) (he : ok w e) : inv (S.step w e).server := by
  cases e with
  | ask q ω =>
      cases hq : w.held q with
      | some a =>
          rw [step_ask_held hq]
          exact hw
      | none =>
          rw [step_ask_none hq]
          exact (hS.asked w q ω hw he).2.2
  | release q => exact hw
  | change c ω => exact hS.performed w c ω hw he

/-- What is held after a step has just been answered, or was held before. -/
theorem Sound.step_held (hS : S.Sound inv ok) {w : World σ Query Answer}
    {e : Event Ω Query Change} (hw : inv w.server) (he : ok w e) {q : Query} {a : Answer}
    (h : (S.step w e).held q = some a) :
    S.right (S.step w e).server q a ∨ w.held q = some a ∧
      ((S.right w.server q a → S.right (S.step w e).server q a) ∨
        ∃ c ω, e = .change c ω ∧ S.drops c q = false) := by
  cases e with
  | ask q' ω =>
      cases hq' : w.held q' with
      | some a' =>
          rw [step_ask_held hq'] at h ⊢
          exact Or.inr ⟨h, Or.inl fun hright => hright⟩
      | none =>
          obtain ⟨hanswer, hsame, -⟩ := hS.asked w q' ω hw he
          rw [step_ask_none hq'] at h ⊢
          by_cases hq : q = q'
          · subst hq
            have hheld : (S.ask ω q w.server).2 = some a :=
              (Function.update_self q _ w.held).symm.trans h
            exact Or.inl (hanswer a hheld)
          · have hheld : w.held q = some a := (Function.update_of_ne hq _ w.held).symm.trans h
            exact Or.inr ⟨hheld, Or.inl (hsame q a)⟩
  | release q' =>
      by_cases hq : q = q'
      · subst hq
        have hnone : (none : Option Answer) = some a :=
          (Function.update_self q _ w.held).symm.trans h
        cases hnone
      · have hheld : w.held q = some a := (Function.update_of_ne hq _ w.held).symm.trans h
        exact Or.inr ⟨hheld, Or.inl fun hright => hright⟩
  | change c ω =>
      have hkept : (if S.drops c q = true then none else w.held q) = some a := h
      cases hdrops : S.drops c q with
      | true =>
          rw [hdrops, if_pos rfl] at hkept
          cases hkept
      | false =>
          rw [hdrops, if_neg Bool.false_ne_true] at hkept
          exact Or.inr ⟨hkept, Or.inr ⟨c, ω, rfl, hdrops⟩⟩

/-- **Held answers are right, or missed.**  In every run from a client that holds nothing
    wrong. -/
theorem Sound.held_or_missed (hS : S.Sound inv ok) {w : World σ Query Answer}
    (hw : inv w.server) (hright : ∀ q a, w.held q = some a → S.right w.server q a)
    {l : List (Event Ω Query Change)} (hl : Throughout S.step ok w l) {q : Query} {a : Answer}
    (h : (play S.step w l).held q = some a) :
    S.right (play S.step w l).server q a ∨
      ∃ before c ω after, l = before ++ .change c ω :: after ∧
        S.Missed (play S.step w before) c ω q a := by
  -- from the last event back to the one that made the answer wrong
  induction l using List.reverseRecOn generalizing q a with
  | nil => exact Or.inl (hright q a h)
  | append_singleton l e ih =>
      obtain ⟨hrun, he⟩ := throughout_append.mp hl
      have hstep : ∀ w e, inv (World.server w) → ok w e → inv (S.step w e).server :=
        fun _ _ => hS.step
      have hinv : inv (play S.step w l).server := Throughout.play hstep hrun hw
      rw [play_append] at h ⊢
      have hlater : (∃ before c ω after, l = before ++ .change c ω :: after ∧
          S.Missed (play S.step w before) c ω q a) →
          ∃ before c ω after, l ++ [e] = before ++ .change c ω :: after ∧
            S.Missed (play S.step w before) c ω q a := by
        rintro ⟨before, c, ω, after, rfl, hmissed⟩
        exact ⟨before, c, ω, after ++ [e], List.append_assoc .., hmissed⟩
      rcases hS.step_held hinv he.1 h with hnow | ⟨hheld, hsame | ⟨c, ω, rfl, hdrops⟩⟩
      · exact Or.inl hnow
      · rcases ih hrun hheld with hbefore | hmissed
        · exact Or.inl (hsame hbefore)
        · exact Or.inr (hlater hmissed)
      · rcases ih hrun hheld with hbefore | hmissed
        · by_cases hafter : S.right (S.perform ω c (play S.step w l).server) q a
          · exact Or.inl hafter
          · exact Or.inr ⟨l, c, ω, [], rfl, hdrops, hheld, hbefore, hafter⟩
        · exact Or.inr (hlater hmissed)

end Service

end TagCache
