import Mathlib.Tactic.Common

/-! # Systems that take one event after the other

    A total `step` on states and events, and the runs that it makes.  `Throughout` is a
    condition that every event of a run meets in the state that finds it, `Always` a
    property of every state of a run.  For a system with an invariant that events outside
    the condition break at once, the two say the same (`always_iff_throughout`). -/

namespace EventRuns

variable {σ ε : Type} (step : σ → ε → σ)

/-- The state after the events. -/
def play : σ → List ε → σ
  | s, [] => s
  | s, e :: rest => play (step s e) rest

@[simp] theorem play_nil (s : σ) : play step s [] = s := rfl

@[simp] theorem play_cons (s : σ) (e : ε) (rest : List ε) :
    play step s (e :: rest) = play step (step s e) rest := rfl

theorem play_append (s : σ) (l l' : List ε) :
    play step s (l ++ l') = play step (play step s l) l' := by
  induction l generalizing s with
  | nil => rfl
  | cons e rest ih => exact ih (step s e)

/-- Every event meets the condition in the state that finds it. -/
def Throughout (ok : σ → ε → Prop) : σ → List ε → Prop
  | _, [] => True
  | s, e :: rest => ok s e ∧ Throughout ok (step s e) rest

instance decidableThroughout {ok : σ → ε → Prop} [∀ s e, Decidable (ok s e)] :
    ∀ (s : σ) (l : List ε), Decidable (Throughout step ok s l)
  | _, [] => isTrue trivial
  | s, e :: rest =>
      have : Decidable (Throughout step ok (step s e) rest) :=
        decidableThroughout (step s e) rest
      inferInstanceAs (Decidable (_ ∧ _))

/-- The property holds at the start and after every event. -/
def Always (good : σ → Prop) : σ → List ε → Prop
  | s, [] => good s
  | s, e :: rest => good s ∧ Always good (step s e) rest

variable {step}

theorem throughout_append {ok : σ → ε → Prop} {s : σ} {l l' : List ε} :
    Throughout step ok s (l ++ l') ↔
      Throughout step ok s l ∧ Throughout step ok (play step s l) l' := by
  induction l generalizing s with
  | nil => exact ⟨fun h => ⟨trivial, h⟩, fun h => h.2⟩
  | cons e rest ih =>
      show ok s e ∧ Throughout step ok (step s e) (rest ++ l') ↔
        (ok s e ∧ Throughout step ok (step s e) rest) ∧
          Throughout step ok (play step (step s e) rest) l'
      rw [ih, and_assoc]

/-- The states of a run are those that its initial segments lead to. -/
theorem always_iff {good : σ → Prop} {s : σ} {l : List ε} :
    Always step good s l ↔ ∀ taken rest, l = taken ++ rest → good (play step s taken) := by
  induction l generalizing s with
  | nil =>
      constructor
      · intro h taken rest hl
        obtain ⟨rfl, rfl⟩ := List.append_eq_nil_iff.mp hl.symm
        exact h
      · exact fun h => h [] [] rfl
  | cons e l ih =>
      constructor
      · rintro ⟨hs, hrest⟩ taken rest hl
        cases taken with
        | nil => exact hs
        | cons e' taken =>
            obtain ⟨rfl, htail⟩ := List.cons.inj hl
            exact ih.mp hrest taken rest htail
      · intro h
        refine ⟨h [] (e :: l) rfl, ih.mpr ?_⟩
        intro taken rest hl
        exact h (e :: taken) rest (congrArg (e :: ·) hl)

theorem Always.head {good : σ → Prop} {s : σ} {l : List ε} (h : Always step good s l) :
    good s := by
  cases l with
  | nil => exact h
  | cons e rest => exact h.1

section Invariants

variable {inv good : σ → Prop} {ok given : σ → ε → Prop}
  (hstep : ∀ s e, inv s → ok s e → inv (step s e))

include hstep in
/-- An invariant of the permitted events. -/
theorem Throughout.play {s : σ} {l : List ε} (h : Throughout step ok s l) (hs : inv s) :
    inv (play step s l) := by
  induction l generalizing s with
  | nil => exact hs
  | cons e rest ih => exact ih h.2 (hstep s e hs h.1)

include hstep in
theorem Throughout.always (hgood : ∀ s, inv s → good s) {s : σ} {l : List ε}
    (h : Throughout step ok s l) (hs : inv s) : Always step good s l := by
  induction l generalizing s with
  | nil => exact hgood s hs
  | cons e rest ih => exact ⟨hgood s hs, ih h.2 (hstep s e hs h.1)⟩

theorem Throughout.and {s : σ} {l : List ε} (h : Throughout step given s l)
    (h' : Throughout step ok s l) : Throughout step (fun s e => given s e ∧ ok s e) s l := by
  induction l generalizing s with
  | nil => trivial
  | cons e rest ih => exact ⟨⟨h.1, h'.1⟩, ih h.2 h'.2⟩

theorem throughout_of_forall (hok : ∀ s e, ok s e) (s : σ) (l : List ε) :
    Throughout step ok s l := by
  induction l generalizing s with
  | nil => trivial
  | cons e rest ih => exact ⟨hok s e, ih (step s e)⟩

/-- **Exactly the permitted runs.**  Among the runs whose events are as given: where an
    event that is not permitted spoils the property at once, every state of a run has it
    exactly when every event is permitted. -/
theorem always_iff_throughout_given
    (hstep : ∀ s e, inv s → given s e → ok s e → inv (step s e))
    (hgood : ∀ s, inv s → good s)
    (hspoiled : ∀ s e, inv s → given s e → good (step s e) → ok s e) {s : σ} (hs : inv s)
    {l : List ε} (hl : Throughout step given s l) :
    Always step good s l ↔ Throughout step ok s l := by
  refine ⟨?_, fun h => (hl.and h).always (fun s e hi ho => hstep s e hi ho.1 ho.2) hgood hs⟩
  intro h
  induction l generalizing s with
  | nil => trivial
  | cons e rest ih =>
      have hok : ok s e := hspoiled s e hs hl.1 h.2.head
      exact ⟨hok, ih (hstep s e hs hl.1 hok) hl.2 h.2⟩

include hstep in
/-- The same of all runs. -/
theorem always_iff_throughout (hgood : ∀ s, inv s → good s)
    (hspoiled : ∀ s e, inv s → good (step s e) → ok s e) {s : σ} (hs : inv s)
    (l : List ε) : Always step good s l ↔ Throughout step ok s l :=
  always_iff_throughout_given (fun s e hi _ ho => hstep s e hi ho) hgood
    (fun s e hi _ hg => hspoiled s e hi hg) hs
    (throughout_of_forall (fun _ _ => trivial) s l : Throughout step (fun _ _ => True) s l)

end Invariants

/-- What holds of every state that events lead to. -/
theorem play_invariant {inv : σ → Prop} (hstep : ∀ s e, inv s → inv (step s e)) {s : σ}
    (hs : inv s) (l : List ε) : inv (play step s l) := by
  induction l generalizing s with
  | nil => exact hs
  | cons e rest ih => exact ih (hstep s e hs)

/-! ## What events write -/

section Writes

variable {υ : Type}

/-- The last value that one of the events writes, or the one from before. -/
def lastWritten (written : ε → Option υ) (v : υ) (l : List ε) : υ :=
  ((l.filterMap written).getLast?).getD v

theorem lastWritten_cons (written : ε → Option υ) (v : υ) (e : ε) (rest : List ε) :
    lastWritten written v (e :: rest) = lastWritten written ((written e).getD v) rest := by
  unfold lastWritten
  cases h : written e with
  | none => rw [List.filterMap_cons_none h, Option.getD_none]
  | some w => rw [List.filterMap_cons_some h, List.getLast?_cons, Option.getD_some,
      Option.getD_some]

/-- A part of the state that every event overwrites or leaves alone. -/
theorem play_lastWritten {part : σ → υ} {written : ε → Option υ}
    (hstep : ∀ s e, part (step s e) = (written e).getD (part s)) (s : σ) (l : List ε) :
    part (play step s l) = lastWritten written (part s) l := by
  induction l generalizing s with
  | nil => rfl
  | cons e rest ih => rw [play_cons, ih, hstep, lastWritten_cons]

end Writes

end EventRuns
