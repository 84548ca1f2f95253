import Mathlib.Data.List.Chain

/-! # Words with single separators between them

    `separate` keeps the elements that pass a test, puts one separator for every run of the
    others, and takes a separator off either end.  What it makes is `Separated`
    (`separated_separate`), and what is `Separated` it leaves as it is (`separate_eq_self`).
    Nothing is left exactly where nothing passes the test (`separate_ne_nil_iff`). -/

namespace SeparatedText

variable {α : Type} [DecidableEq α] (keep : α → Bool) (sep : α)

/-- A separator for every run of elements that do not pass.  `pending` says whether the run
    at hand has its separator. -/
def collapse : (pending : Bool) → List α → List α
  | _, [] => []
  | pending, a :: rest =>
      if keep a then a :: collapse false rest
      else if pending then collapse true rest
      else sep :: collapse true rest

/-- The list without a separator at its start. -/
def dropFirst : List α → List α
  | [] => []
  | a :: rest => if a = sep then rest else a :: rest

/-- One separator less at either end. -/
def trim (l : List α) : List α := (dropFirst sep (dropFirst sep l).reverse).reverse

/-- Everything that does not pass made into separators, and none at the ends. -/
def separate (l : List α) : List α := trim sep (collapse keep sep false l)

/-- Not both are separators. -/
def Apart (a b : α) : Prop := a ≠ sep ∨ b ≠ sep

/-- Elements that pass, with single separators between some of them. -/
structure Separated (l : List α) : Prop where
  allowed : ∀ a ∈ l, keep a = true ∨ a = sep
  apart : l.IsChain (Apart sep)
  first : l.head? ≠ some sep
  last : l.getLast? ≠ some sep

variable {keep sep}

/-! ## Runs -/

omit [DecidableEq α] in
/-- What is left passes, or is a separator. -/
theorem mem_collapse {l : List α} {pending : Bool} {a : α}
    (h : a ∈ collapse keep sep pending l) : (a ∈ l ∧ keep a = true) ∨ a = sep := by
  induction l generalizing pending with
  | nil => exact absurd h List.not_mem_nil
  | cons b rest ih =>
      have hrest : ∀ {pending}, a ∈ collapse keep sep pending rest →
          (a ∈ b :: rest ∧ keep a = true) ∨ a = sep :=
        fun h => (ih h).imp_left fun h => ⟨List.mem_cons_of_mem _ h.1, h.2⟩
      rw [collapse] at h
      by_cases hb : keep b = true
      · rw [if_pos hb] at h
        rcases List.mem_cons.mp h with rfl | h
        · exact .inl ⟨List.mem_cons_self .., hb⟩
        · exact hrest h
      · rw [if_neg hb] at h
        cases pending with
        | true => exact hrest h
        | false =>
            rcases List.mem_cons.mp h with rfl | h
            · exact .inr rfl
            · exact hrest h

omit [DecidableEq α] in
/-- What passes stays. -/
theorem mem_collapse_of_keep {l : List α} (pending : Bool) {a : α} (h : a ∈ l)
    (ha : keep a = true) : a ∈ collapse keep sep pending l := by
  induction l generalizing pending with
  | nil => exact absurd h List.not_mem_nil
  | cons b rest ih =>
      rw [collapse]
      by_cases hb : keep b = true
      · rw [if_pos hb]
        rcases List.mem_cons.mp h with rfl | h
        · exact List.mem_cons_self ..
        · exact List.mem_cons_of_mem _ (ih false h)
      · rw [if_neg hb]
        have hrest : a ∈ rest := by
          rcases List.mem_cons.mp h with rfl | h
          · exact absurd ha hb
          · exact h
        cases pending with
        | true => exact ih true hrest
        | false => exact List.mem_cons_of_mem _ (ih true hrest)

omit [DecidableEq α] in
/-- No two separators are next to each other, also with the one before a run at hand. -/
theorem collapse_apart (hsep : keep sep = false) (l : List α) :
    (collapse keep sep false l).IsChain (Apart sep) ∧
      (sep :: collapse keep sep true l).IsChain (Apart sep) := by
  induction l with
  | nil => exact ⟨.nil, .singleton sep⟩
  | cons b rest ih =>
      by_cases hb : keep b = true
      · have hne : b ≠ sep := by
          rintro rfl
          rw [hb] at hsep
          cases hsep
        have hkept : (b :: collapse keep sep false rest).IsChain (Apart sep) :=
          List.isChain_cons.mpr ⟨fun _ _ => .inl hne, ih.1⟩
        constructor
        · rw [collapse, if_pos hb]
          exact hkept
        · rw [collapse, if_pos hb]
          exact List.isChain_cons_cons.mpr ⟨.inr hne, hkept⟩
      · constructor
        · rw [collapse, if_neg hb]
          exact ih.2
        · rw [collapse, if_neg hb]
          exact ih.2

omit [DecidableEq α] in
/-- Where every separator stands alone there is nothing to collapse. -/
theorem collapse_eq_self (hsep : keep sep = false) {l : List α}
    (hallowed : ∀ a ∈ l, keep a = true ∨ a = sep) {pending : Bool}
    (hapart : l.IsChain (Apart sep)) (hfirst : pending = true → l.head? ≠ some sep) :
    collapse keep sep pending l = l := by
  induction l generalizing pending with
  | nil => rfl
  | cons b rest ih =>
      obtain ⟨hnext, hrest⟩ := List.isChain_cons.mp hapart
      have hallowed' : ∀ a ∈ rest, keep a = true ∨ a = sep :=
        fun a ha => hallowed a (List.mem_cons_of_mem _ ha)
      rw [collapse]
      rcases hallowed b (List.mem_cons_self ..) with hb | rfl
      · have hkept : collapse keep sep false rest = rest :=
          ih hallowed' hrest fun h => absurd h Bool.false_ne_true
        rw [if_pos hb, hkept]
      · -- the separator stands alone, so no run is at hand and none goes on
        have hb : ¬ keep b = true := by
          rw [hsep]
          exact Bool.false_ne_true
        rw [if_neg hb]
        cases pending with
        | true => exact absurd rfl (hfirst rfl)
        | false =>
            rw [if_neg Bool.false_ne_true, ih hallowed' hrest]
            intro _ hhead
            rcases hnext b hhead with h | h
            · exact h rfl
            · exact h rfl

/-! ## Ends -/

/-- The list loses a start only. -/
theorem dropFirst_suffix (l : List α) : dropFirst sep l <:+ l := by
  cases l with
  | nil => exact List.suffix_refl _
  | cons a rest =>
      rw [dropFirst]
      by_cases ha : a = sep
      · rw [if_pos ha]
        exact List.suffix_cons a rest
      · exact ⟨[], if_neg ha⟩

/-- Where separators stand alone, none is first afterwards. -/
theorem dropFirst_head? {l : List α} (h : l.IsChain (Apart sep)) :
    (dropFirst sep l).head? ≠ some sep := by
  cases l with
  | nil => exact fun h => nomatch h
  | cons a rest =>
      rw [dropFirst]
      by_cases ha : a = sep
      · rw [if_pos ha]
        intro hhead
        rcases (List.isChain_cons.mp h).1 sep hhead with h | h
        · exact h ha
        · exact h rfl
      · rw [if_neg ha]
        exact fun h => ha (Option.some.inj h)

/-- No element is lost but the separator. -/
theorem mem_dropFirst {l : List α} {a : α} (h : a ∈ l) (ha : a ≠ sep) :
    a ∈ dropFirst sep l := by
  cases l with
  | nil => exact absurd h List.not_mem_nil
  | cons b rest =>
      rw [dropFirst]
      by_cases hb : b = sep
      · rw [if_pos hb]
        exact (List.mem_cons.mp h).resolve_left fun hab => ha (hab.trans hb)
      · rw [if_neg hb]
        exact h

/-- A list that starts otherwise stays. -/
theorem dropFirst_eq_self {l : List α} (h : l.head? ≠ some sep) : dropFirst sep l = l := by
  cases l with
  | nil => rfl
  | cons a rest =>
      rw [dropFirst, if_neg]
      rintro rfl
      exact h rfl

omit [DecidableEq α] in
/-- Separators stand alone from either end. -/
theorem isChain_apart_reverse {l : List α} (h : l.IsChain (Apart sep)) :
    l.reverse.IsChain (Apart sep) :=
  List.isChain_reverse.mpr (h.imp fun _ _ => Or.symm)

/-- The second cut is at the other end. -/
theorem trim_isPrefix (l : List α) : trim sep l <+: dropFirst sep l := by
  rw [← List.reverse_suffix, trim, List.reverse_reverse]
  exact dropFirst_suffix _

/-- Trimming brings nothing in. -/
theorem mem_of_mem_trim {l : List α} {a : α} (h : a ∈ trim sep l) : a ∈ l :=
  (dropFirst_suffix l).subset ((trim_isPrefix l).subset h)

/-- No element is lost but the separator. -/
theorem mem_trim {l : List α} {a : α} (h : a ∈ l) (ha : a ≠ sep) : a ∈ trim sep l :=
  List.mem_reverse.mpr (mem_dropFirst (List.mem_reverse.mpr (mem_dropFirst h ha)) ha)

/-- A list with other ends stays. -/
theorem trim_eq_self {l : List α} (hfirst : l.head? ≠ some sep)
    (hlast : l.getLast? ≠ some sep) : trim sep l = l := by
  rw [trim, dropFirst_eq_self hfirst, dropFirst_eq_self, List.reverse_reverse]
  rw [List.head?_reverse]
  exact hlast

/-! ## Both -/

/-- The result begins as what the first cut leaves, unless it is empty. -/
theorem trim_head? {l : List α} (h : l.IsChain (Apart sep)) :
    (trim sep l).head? ≠ some sep := by
  intro hhead
  obtain ⟨rest, hrest⟩ : trim sep l <+: dropFirst sep l := trim_isPrefix l
  apply dropFirst_head? h
  rw [← hrest, List.head?_append, hhead]
  rfl

/-- Nor is a separator last. -/
theorem trim_getLast? {l : List α} (h : l.IsChain (Apart sep)) :
    (trim sep l).getLast? ≠ some sep := by
  rw [trim, List.getLast?_reverse]
  exact dropFirst_head? (isChain_apart_reverse (h.suffix (dropFirst_suffix l)))

/-- What comes out is separated. -/
theorem separated_separate (hsep : keep sep = false) (l : List α) :
    Separated keep sep (separate keep sep l) := by
  have hapart := (collapse_apart hsep l).1
  refine ⟨?_, ?_, trim_head? hapart, trim_getLast? hapart⟩
  · intro a ha
    exact (mem_collapse (mem_of_mem_trim ha)).imp_left fun h => h.2
  · have hcut : (dropFirst sep (collapse keep sep false l)).IsChain (Apart sep) :=
      hapart.suffix (dropFirst_suffix _)
    exact List.IsChain.prefix hcut (trim_isPrefix _)

/-- What is separated stays as it is. -/
theorem separate_eq_self (hsep : keep sep = false) {l : List α}
    (h : Separated keep sep l) : separate keep sep l = l := by
  have hcollapse : collapse keep sep false l = l :=
    collapse_eq_self hsep h.allowed h.apart (fun h => nomatch h)
  rw [separate, hcollapse, trim_eq_self h.first h.last]

/-- **Something is left** exactly where something passes. -/
theorem separate_ne_nil_iff (hsep : keep sep = false) (l : List α) :
    separate keep sep l ≠ [] ↔ ∃ a ∈ l, keep a = true := by
  constructor
  · intro hne
    obtain ⟨a, rest, hcons⟩ := List.exists_cons_of_ne_nil hne
    have hseparated := separated_separate hsep l
    have hmem : a ∈ separate keep sep l := hcons ▸ List.mem_cons_self ..
    rcases mem_collapse (mem_of_mem_trim hmem) with ⟨ha, hkeep⟩ | rfl
    · exact ⟨a, ha, hkeep⟩
    · exact absurd (by rw [hcons]; rfl) hseparated.first
  · rintro ⟨a, ha, hkeep⟩ hnil
    have hne : a ≠ sep := by
      rintro rfl
      rw [hkeep] at hsep
      cases hsep
    have hmem : a ∈ separate keep sep l := mem_trim (mem_collapse_of_keep false ha hkeep) hne
    rw [hnil] at hmem
    exact List.not_mem_nil hmem

end SeparatedText
