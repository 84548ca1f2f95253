import Mathlib.Data.List.Basic

/-! # Copies of a versioned document

    A document whose every change raises its version number, copies of it that were taken
    at any time, and a log of changes with what each of them was answered.  A copy with the
    version of the document is the document (`Copies.same`), so a change that was worked out
    on such a copy is a change of the document as it is: the log replays (`Replays`). -/

namespace VersionedCopies

variable {D C E α : Type}

/-! ## Copies -/

/-- Copies of the document, taken now or before. -/
structure Copies (version : D → Nat) (copies : List D) (d : D) : Prop where
  older : ∀ c ∈ copies, version c ≤ version d
  same : ∀ c ∈ copies, version c = version d → c = d

namespace Copies

variable {version : D → Nat} {copies : List D} {d d' : D}

theorem nil (version : D → Nat) (d : D) : Copies version [] d :=
  ⟨fun _ hc => absurd hc List.not_mem_nil, fun _ hc => absurd hc List.not_mem_nil⟩

/-- New copies. -/
theorem taken (h : Copies version copies d) {new : List D} (hnew : ∀ c ∈ new, c = d) :
    Copies version (copies ++ new) d := by
  constructor
  · intro c hc
    rcases List.mem_append.mp hc with hc | hc
    · exact h.older c hc
    · exact Nat.le_of_eq (congrArg version (hnew c hc))
  · intro c hc hversion
    rcases List.mem_append.mp hc with hc | hc
    · exact h.same c hc hversion
    · exact hnew c hc

/-- A change, by which all copies become old ones. -/
theorem changed (h : Copies version copies d) (hrise : version d < version d') :
    Copies version copies d' := by
  constructor
  · intro c hc
    have hold := h.older c hc
    omega
  · intro c hc hversion
    have hold := h.older c hc
    omega

/-- What is no copy of the present document is behind it. -/
theorem behind (h : Copies version copies d) {c : D} (hc : c ∈ copies) (hne : c ≠ d) :
    version c ≠ version d :=
  fun hversion => hne (h.same c hc hversion)

end Copies

/-! ## Logs -/

/-- The log of changes leads from the first document to this one: each change was made on
    the document as the changes before it had left it, or was answered by an exception and
    not made.  No change that was made has been answered by a refusal. -/
inductive Replays (Makes : C → D → D → Prop) (refusal : E → Prop) (first : D) :
    List (C × Except E α) → D → Prop
  | nil : Replays Makes refusal first [] first
  | made {log : List (C × Except E α)} {d d' : D} {change : C} {out : Except E α}
      (before : Replays Makes refusal first log d) (makes : Makes change d d')
      (answer : ∀ e, out = .error e → ¬ refusal e) :
      Replays Makes refusal first (log ++ [(change, out)]) d'
  | thrown {log : List (C × Except E α)} {d : D} {change : C} {e : E}
      (before : Replays Makes refusal first log d) :
      Replays Makes refusal first (log ++ [(change, .error e)]) d

variable {Makes : C → D → D → Prop} {refusal : E → Prop} {first d : D}
  {log : List (C × Except E α)}

/-- What every change keeps holds at the end. -/
theorem Replays.keeps {I : D → Prop} (hI : ∀ c d d', Makes c d d' → I d → I d')
    (h : Replays Makes refusal first log d) (hfirst : I first) : I d := by
  induction h with
  | nil => exact hfirst
  | made before makes answer ih => exact hI _ _ _ makes ih
  | thrown before ih => exact ih

end VersionedCopies
