import Mathlib
import TaskPlatform.SeparatedText
import TaskPlatform.TaskIntegrity

/-! # Slugs that are made from names

    A slug that a client sends has to match `^[a-z0-9-]+$`.  The one that `createWorkspace`
    makes from the name keeps the letters and digits of the name, in lower case, with single
    dashes where something else stood between them, so it is all that the pattern asks for
    unless nothing is kept: a name without any letter or digit of ASCII gives the empty
    slug (`generated_slug_iff`). -/

namespace PlatformApi

open Interleaving PlatformEntities PlatformTasks SeparatedText

/-! ## The two replacements -/

theorem dashed_eq_collapse (pending : Bool) (l : List Char) :
    dashed pending l = collapse inSlug '-' pending l := by
  induction l generalizing pending with
  | nil => rfl
  | cons c rest ih =>
      rw [dashed, collapse, ih, ih]

theorem trimDashes_eq_trim (l : List Char) : trimDashes l = trim '-' l := by
  unfold trimDashes
  extract_lets dropDash
  have hdrop : ∀ m, dropDash m = dropFirst '-' m := by
    intro m
    cases m with
    | nil => rfl
    | cons c rest =>
        rw [dropFirst]
        by_cases hc : c = '-'
        · rw [if_pos hc, hc]
          rfl
        · rw [if_neg hc]
          simp only [dropDash]
          split
          · next h => exact absurd (List.cons.inj h).1 hc
          · rfl
  rw [hdrop, hdrop, trim]

/-- The name in lower case. -/
def lowered (name : String) : List Char := name.toList.flatMap toLowerCase

theorem slugOf_toList (name : String) :
    (slugOf name).toList = separate inSlug '-' (lowered name) := by
  rw [slugOf, String.toList_ofList, trimDashes_eq_trim, dashed_eq_collapse]
  rfl

/-! ## Lower case -/

theorem inSlug_eq (c : Char) : inSlug c = (c.isLower || c.isDigit) := rfl

theorem inSlug_toLower (c : Char) : inSlug c.toLower = c.isAlphanum := by
  rw [inSlug_eq, Char.isLower_toLower_eq_isAlpha, Char.isAlphanum]
  by_cases hc : c.isUpper = true
  · have halpha : c.isAlpha = true := by
      rw [Char.isAlpha, hc]
      rfl
    rw [halpha]
    rfl
  · rw [Char.toLower_eq_of_not_isUpper hc]

/-- What a slug holds is lower case already. -/
theorem toLowerCase_of_allowed {c : Char} (h : inSlug c = true ∨ c = '-') :
    toLowerCase c = [c] := by
  rcases h with h | rfl
  · have hupper : ¬ c.isUpper = true := by
      simp only [inSlug_eq, Char.isLower, Char.isDigit, Bool.or_eq_true, Bool.and_eq_true,
        decide_eq_true_eq, UInt32.le_iff_toNat_le] at h
      simp only [Char.isUpper, decide_eq_true_eq, UInt32.le_iff_toNat_le]
      simp at h ⊢
      omega
    rw [toLowerCase, if_neg, if_neg, Char.toLower_eq_of_not_isUpper hupper]
    · rintro rfl
      exact absurd h (by decide)
    · rintro rfl
      exact absurd h (by decide)
  · decide

/-- A letter or a digit of ASCII, or one of the two other characters that have a letter of
    ASCII in their lower case. -/
def makesSlug (c : Char) : Bool := c.isAlphanum || c = '\u212A' || c = '\u0130'

theorem exists_inSlug_toLowerCase (c : Char) :
    (∃ d ∈ toLowerCase c, inSlug d = true) ↔ makesSlug c = true := by
  rw [makesSlug, Bool.or_eq_true, Bool.or_eq_true, decide_eq_true_eq, decide_eq_true_eq]
  by_cases hk : c = '\u212A'
  · subst hk
    exact ⟨fun _ => .inl (.inr rfl), fun _ => ⟨'k', by decide, by decide⟩⟩
  · by_cases hi : c = '\u0130'
    · subst hi
      exact ⟨fun _ => .inr rfl, fun _ => ⟨'i', by decide, by decide⟩⟩
    · have hlower : toLowerCase c = [c.toLower] := by
        rw [toLowerCase, if_neg hk, if_neg hi]
      rw [hlower]
      simp only [List.mem_singleton, exists_eq_left, inSlug_toLower, hk, hi, or_false]

theorem lowered_of_allowed {s : String} (h : ∀ c ∈ s.toList, inSlug c = true ∨ c = '-') :
    lowered s = s.toList := by
  have hall : ∀ l : List Char, (∀ c ∈ l, inSlug c = true ∨ c = '-') →
      l.flatMap toLowerCase = l := by
    intro l
    induction l with
    | nil => exact fun _ => rfl
    | cons c rest ih =>
        intro hl
        rw [List.flatMap_cons, toLowerCase_of_allowed (hl c (List.mem_cons_self ..)),
          ih fun d hd => hl d (List.mem_cons_of_mem _ hd)]
        rfl
  exact hall s.toList h

/-! ## Slugs -/

/-- What is asked of a slug: it is there, matches the pattern of the DTO, has no dash at its
    ends and no two next to each other, and is its own slug. -/
structure GoodSlug (slug : String) : Prop where
  nonempty : slug ≠ ""
  valid : validSlug slug = true
  first : slug.toList.head? ≠ some '-'
  last : slug.toList.getLast? ≠ some '-'
  single : ¬ ['-', '-'] <:+: slug.toList
  again : slugOf slug = slug

/-- The name has a character that the slug keeps. -/
def HasSlugLetter (name : String) : Prop := ∃ c ∈ name.toList, makesSlug c = true

theorem slugOf_separated (name : String) : Separated inSlug '-' (slugOf name).toList := by
  rw [slugOf_toList]
  exact separated_separate (by decide) _

theorem slugOf_slugOf (name : String) : slugOf (slugOf name) = slugOf name := by
  apply String.toList_injective
  have hseparated := slugOf_separated name
  rw [slugOf_toList, lowered_of_allowed hseparated.allowed,
    separate_eq_self (by decide) hseparated]

theorem slugOf_ne_empty_iff (name : String) : slugOf name ≠ "" ↔ HasSlugLetter name := by
  have hempty : slugOf name ≠ "" ↔ separate inSlug '-' (lowered name) ≠ [] := by
    rw [← slugOf_toList, not_iff_not]
    exact ⟨fun h => by rw [h]; rfl, fun h => String.toList_injective h⟩
  rw [hempty, separate_ne_nil_iff (by decide)]
  constructor
  · rintro ⟨d, hd, hkeep⟩
    obtain ⟨c, hc, hdc⟩ := List.mem_flatMap.mp hd
    exact ⟨c, hc, (exists_inSlug_toLowerCase c).mp ⟨d, hdc, hkeep⟩⟩
  · rintro ⟨c, hc, hmakes⟩
    obtain ⟨d, hdc, hkeep⟩ := (exists_inSlug_toLowerCase c).mpr hmakes
    exact ⟨d, List.mem_flatMap.mpr ⟨c, hc, hdc⟩, hkeep⟩

/-- **Which names give a slug.**  The slug made from a name is all that is asked of one
    exactly when the name has a letter or digit that it keeps. -/
theorem generated_slug_iff (name : String) :
    GoodSlug (slugOf name) ↔ HasSlugLetter name := by
  rw [← slugOf_ne_empty_iff]
  refine ⟨GoodSlug.nonempty, ?_⟩
  intro hne
  have hseparated := slugOf_separated name
  refine ⟨hne, ?_, hseparated.first, hseparated.last, ?_, slugOf_slugOf name⟩
  · rw [validSlug, Bool.and_eq_true, decide_eq_true_eq, List.all_eq_true]
    refine ⟨hne, ?_⟩
    intro c hc
    rw [Bool.or_eq_true, decide_eq_true_eq]
    exact hseparated.allowed c hc
  · intro hdouble
    have hapart := List.IsChain.infix hseparated.apart hdouble
    rcases (List.isChain_cons_cons.mp hapart).1 with h | h
    · exact h rfl
    · exact h rfl

/-- A name of three Greek letters, as a client may send it. -/
theorem generated_slug_empty :
    "αβγ" ≠ "" ∧ slugOf "αβγ" = "" ∧ ¬ GoodSlug (slugOf "αβγ") := by
  have hempty : slugOf "αβγ" = "" := by decide
  exact ⟨by decide, hempty, fun h => h.nonempty hempty⟩

/-- The operation is about this slug, if about any. -/
def AboutSlug (slug : String) : ApiOp → Prop
  | .findWorkspaceBySlug s => s = slug
  | .insertWorkspace _ s _ => s = slug
  | _ => True

/-- Where no slug is given, the workspace is looked for and stored under the one made from
    its name. -/
theorem createWorkspace_aboutSlug (ownerId name : String) :
    OnlyIssues (AboutSlug (slugOf name)) (createWorkspace ownerId name none) := by
  refine ⟨rfl, ?_⟩
  rintro (_ | w)
  · refine ⟨rfl, ?_⟩
    rintro (e | saved)
    · trivial
    · exact ⟨trivial, fun _ => trivial⟩
  · trivial

end PlatformApi
