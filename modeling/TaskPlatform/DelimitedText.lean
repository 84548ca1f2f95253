import Mathlib.Data.List.Basic
import Mathlib.Algebra.BigOperators.Group.List.Basic
import Mathlib.Algebra.GroupWithZero.Nat
import Mathlib.Tactic.Common

/-! # Texts joined by separators

    A text that is put together from parts with fixed separators between them can be cut
    up again in more than one way as soon as a part holds a separator.  Where no part
    holds the character that every separator begins with, there is one way only
    (`oneReading_of_free`): the number of these characters leaves no room for another. -/

namespace DelimitedText

variable {α : Type}

/-- What stands before the first separator. -/
theorem before_first {c : α} {a b x y : List α} (ha : c ∉ a) (hb : c ∉ b)
    (h : a ++ c :: x = b ++ c :: y) : a = b ∧ x = y := by
  induction a generalizing b with
  | nil =>
      cases b with
      | nil => exact ⟨rfl, (List.cons.inj h).2⟩
      | cons d b =>
          have hd : c = d := (List.cons.inj h).1
          exact absurd (hd ▸ List.mem_cons_self ..) hb
  | cons e a ih =>
      cases b with
      | nil =>
          have he : e = c := (List.cons.inj h).1
          exact absurd (he ▸ List.mem_cons_self ..) ha
      | cons d b =>
          obtain ⟨hed, hrest⟩ := List.cons.inj h
          obtain ⟨hab, hxy⟩ := ih (fun hm => ha (List.mem_cons_of_mem _ hm))
            (fun hm => hb (List.mem_cons_of_mem _ hm)) hrest
          exact ⟨by rw [hed, hab], hxy⟩

/-- Each part with its separator behind it, and the last part. -/
def join : (separators parts : List (List α)) → (last : List α) → List α
  | s :: separators, p :: parts, last => p ++ (s ++ join separators parts last)
  | _, _, last => last

/-- The text that these parts make can be cut up in no other way into parts that are not
    empty. -/
def OneReading (separators parts : List (List α)) (last : List α) : Prop :=
  ∀ parts' last', parts'.length = parts.length → (∀ p ∈ parts', p ≠ []) →
    join separators parts' last' = join separators parts last →
    parts' = parts ∧ last' = last

section Count

variable [DecidableEq α] (c : α)

theorem count_join {separators parts : List (List α)} (last : List α)
    (h : parts.length = separators.length) :
    (join separators parts last).count c
      = (parts.map (List.count c)).sum + (separators.map (List.count c)).sum
        + last.count c := by
  induction separators generalizing parts with
  | nil =>
      cases parts with
      | nil => simp [join]
      | cons p parts => cases h
  | cons s separators ih =>
      cases parts with
      | nil => cases h
      | cons p parts =>
          rw [join, List.count_append, List.count_append, ih (Nat.succ.inj h)]
          simp only [List.map_cons, List.sum_cons]
          omega

variable {c}

theorem not_mem_of_sum_eq_zero {parts : List (List α)}
    (h : (parts.map (List.count c)).sum = 0) : ∀ p ∈ parts, c ∉ p := by
  induction parts with
  | nil => exact fun p hp => absurd hp List.not_mem_nil
  | cons q parts ih =>
      rw [List.map_cons, List.sum_cons] at h
      intro p hp
      rcases List.mem_cons.mp hp with rfl | hp
      · exact List.count_eq_zero.mp (by omega)
      · exact ih (by omega) p hp

theorem sum_eq_zero_of_not_mem {parts : List (List α)} (h : ∀ p ∈ parts, c ∉ p) :
    (parts.map (List.count c)).sum = 0 := by
  induction parts with
  | nil => rfl
  | cons q parts ih =>
      rw [List.map_cons, List.sum_cons, ih fun p hp => h p (List.mem_cons_of_mem _ hp),
        List.count_eq_zero.mpr (h q (List.mem_cons_self ..))]

omit [DecidableEq α] in
/-- Parts without the character that the separators begin with, read from the front. -/
theorem join_injective_of_free {separators parts parts' : List (List α)}
    {last last' : List α} (hseparators : ∀ s ∈ separators, ∃ t, s = c :: t)
    (hlength : parts.length = separators.length)
    (hlength' : parts'.length = separators.length) (hparts : ∀ p ∈ parts, c ∉ p)
    (hparts' : ∀ p ∈ parts', c ∉ p)
    (h : join separators parts' last' = join separators parts last) :
    parts' = parts ∧ last' = last := by
  induction separators generalizing parts parts' with
  | nil =>
      cases parts with
      | cons p parts => cases hlength
      | nil =>
          cases parts' with
          | cons p parts' => cases hlength'
          | nil => exact ⟨rfl, h⟩
  | cons s separators ih =>
      cases parts with
      | nil => cases hlength
      | cons p parts =>
          cases parts' with
          | nil => cases hlength'
          | cons p' parts' =>
              obtain ⟨t, rfl⟩ := hseparators s (List.mem_cons_self ..)
              obtain ⟨hp, hrest⟩ := before_first (hparts' p' (List.mem_cons_self ..))
                (hparts p (List.mem_cons_self ..)) h
              obtain ⟨hps, hlast⟩ := ih
                (fun s hs => hseparators s (List.mem_cons_of_mem _ hs))
                (Nat.succ.inj hlength) (Nat.succ.inj hlength')
                (fun p hp => hparts p (List.mem_cons_of_mem _ hp))
                (fun p hp => hparts' p (List.mem_cons_of_mem _ hp))
                (List.append_cancel_left hrest)
              exact ⟨by rw [hp, hps], hlast⟩

/-- **One reading.**  Parts that are free of the character that the separators begin with
    are the only ones that make their text. -/
theorem oneReading_of_free {separators parts : List (List α)} {last : List α}
    (hseparators : ∀ s ∈ separators, ∃ t, s = c :: t)
    (hlength : parts.length = separators.length) (hparts : ∀ p ∈ parts, c ∉ p)
    (hlast : c ∉ last) : OneReading separators parts last := by
  intro parts' last' hlength' _ h
  have hlength'' : parts'.length = separators.length := hlength'.trans hlength
  have hcount := congrArg (List.count c) h
  rw [count_join c last' hlength'', count_join c last hlength,
    sum_eq_zero_of_not_mem hparts, List.count_eq_zero.mpr hlast] at hcount
  exact join_injective_of_free hseparators hlength hlength'' hparts
    (not_mem_of_sum_eq_zero (by omega)) h

end Count

end DelimitedText
