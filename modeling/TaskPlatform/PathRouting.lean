import Mathlib.Data.List.Basic
import Mathlib.Tactic.Common

/-! # Paths and the tables that route them

    A pattern is a row of fixed words and parameters, a table a list of patterns with names,
    and a request goes to the first row that matches it.  Where the arguments of a path are
    none of the words of the table, which rows can match a path depends on the pattern only
    that it was made from (`mayMatch`).  If that leaves the row it was made for, the request
    gets there with its arguments, in whatever order the rows stand (`route_fill`). -/

namespace PathRouting

variable {α : Type}

/-- A part of a route's path. -/
inductive PathPart (α : Type) where
  | word (w : α)
  | param
  deriving DecidableEq, Repr

/-- How a segment is compared with a word, and what may stand for a parameter. -/
structure Reading (α : Type) where
  same : α → α → Bool
  admits : α → Bool

/-- The arguments, if the pattern matches the whole path. -/
def matchParts (R : Reading α) : List (PathPart α) → List α → Option (List α)
  | [], [] => some []
  | .word w :: pattern, s :: path => if R.same w s then matchParts R pattern path else none
  | .param :: pattern, s :: path =>
      if R.admits s then (matchParts R pattern path).map (s :: ·) else none
  | _, _ => none

/-- The path that the arguments make of a pattern. -/
def fill : List (PathPart α) → List α → List α
  | [], _ => []
  | .word w :: pattern, args => w :: fill pattern args
  | .param :: pattern, a :: args => a :: fill pattern args
  | .param :: _, [] => []

/-- The number of parameters. -/
def arity : List (PathPart α) → Nat
  | [] => 0
  | .word _ :: pattern => arity pattern
  | .param :: pattern => arity pattern + 1

/-- The fixed words. -/
def words : List (PathPart α) → List α
  | [] => []
  | .word w :: pattern => w :: words pattern
  | .param :: pattern => words pattern

/-- Whether `q` may match a path made from `p` with arguments that are no words. -/
def mayMatch (R : Reading α) : (q p : List (PathPart α)) → Bool
  | [], [] => true
  | .word v :: q, .word w :: p => R.same v w && mayMatch R q p
  | .param :: q, .word _ :: p => mayMatch R q p
  | .param :: q, .param :: p => mayMatch R q p
  | _, _ => false

section Paths

variable {R : Reading α}

theorem mem_fill {p : List (PathPart α)} {args : List α} {s : α} (h : s ∈ fill p args) :
    s ∈ words p ∨ s ∈ args := by
  induction p generalizing args with
  | nil => cases h
  | cons part p ih =>
      cases part with
      | word w =>
          rcases List.mem_cons.mp h with rfl | h
          · exact Or.inl (List.mem_cons_self ..)
          · exact (ih h).imp_left (List.mem_cons_of_mem _)
      | param =>
          cases args with
          | nil => cases h
          | cons a args =>
              rcases List.mem_cons.mp h with rfl | h
              · exact Or.inr (List.mem_cons_self ..)
              · exact (ih h).imp_right (List.mem_cons_of_mem _)

/-- **A path is read as it was made.** -/
theorem matchParts_fill (hsame : ∀ w, R.same w w = true) {p : List (PathPart α)} {args : List α}
    (hlength : args.length = arity p) (hargs : ∀ a ∈ args, R.admits a = true) :
    matchParts R p (fill p args) = some args := by
  induction p generalizing args with
  | nil =>
      rw [List.length_eq_zero_iff.mp hlength]
      rfl
  | cons part p ih =>
      cases part with
      | word w =>
          rw [fill, matchParts, if_pos (hsame w)]
          exact ih hlength hargs
      | param =>
          cases args with
          | nil => cases hlength
          | cons a args =>
              rw [fill, matchParts, if_pos (hargs a (List.mem_cons_self ..)),
                ih (Nat.succ.inj hlength) fun b hb => hargs b (List.mem_cons_of_mem _ hb)]
              rfl

/-- A pattern that cannot match it does not. -/
theorem matchParts_of_not_mayMatch {q p : List (PathPart α)} {args : List α}
    (hlength : args.length = arity p)
    (hfree : ∀ v ∈ words q, ∀ a ∈ args, R.same v a = false) (h : mayMatch R q p = false) :
    matchParts R q (fill p args) = none := by
  induction q generalizing p args with
  | nil =>
      cases p with
      | nil => cases h
      | cons part p =>
          cases part with
          | word w => rfl
          | param =>
              cases args with
              | nil => cases hlength
              | cons a args => rfl
  | cons part q ih =>
      cases p with
      | nil => cases part <;> rfl
      | cons part' p =>
          cases part' with
          | word w =>
              cases part with
              | word v =>
                  rw [fill, matchParts]
                  by_cases hv : R.same v w = true
                  · rw [if_pos hv]
                    refine ih hlength (fun u hu => hfree u (List.mem_cons_of_mem _ hu)) ?_
                    rw [mayMatch, hv, Bool.true_and] at h
                    exact h
                  · rw [if_neg hv]
              | param =>
                  rw [fill, matchParts, ih (p := p) hlength hfree h]
                  exact ite_self none
          | param =>
              cases args with
              | nil => cases hlength
              | cons a args =>
                  cases part with
                  | word v =>
                      have hv : R.same v a = false :=
                        hfree v (List.mem_cons_self ..) a (List.mem_cons_self ..)
                      rw [fill, matchParts, hv]
                      rfl
                  | param =>
                      rw [fill, matchParts, ih (Nat.succ.inj hlength)
                        (fun v hv b hb => hfree v hv b (List.mem_cons_of_mem _ hb)) h]
                      exact ite_self none

end Paths

/-! ## Tables -/

/-- A row of a table: a method, a pattern, and the name of what handles the requests. -/
structure Row (μ α ν : Type) where
  method : μ
  pattern : List (PathPart α)
  name : ν
  deriving DecidableEq

section Tables

variable {μ ν : Type} [DecidableEq μ] (R : Reading α)

/-- What a row makes of a request. -/
def Row.match? (row : Row μ α ν) (method : μ) (path : List α) : Option (ν × List α) :=
  if row.method = method then (matchParts R row.pattern path).map fun args => (row.name, args)
  else none

/-- The first row that matches handles the request. -/
def route (table : List (Row μ α ν)) (method : μ) (path : List α) : Option (ν × List α) :=
  table.findSome? fun row => row.match? R method path

variable {R} {table : List (Row μ α ν)}

theorem route_none {method : μ} {path : List α}
    (h : ∀ row ∈ table, row.match? R method path = none) : route R table method path = none :=
  List.findSome?_eq_none_iff.mpr h

theorem route_of_only {method : μ} {path : List α} {out : ν × List α} {row : Row μ α ν}
    (hmem : row ∈ table) (hrow : row.match? R method path = some out)
    (hothers : ∀ row' ∈ table, row'.match? R method path = none ∨
      row'.match? R method path = some out) :
    route R table method path = some out := by
  cases hroute : route R table method path with
  | none =>
      have hnone := List.findSome?_eq_none_iff.mp hroute row hmem
      rw [hrow] at hnone
      cases hnone
  | some found =>
      obtain ⟨row', hmem', hfound⟩ := List.exists_of_findSome?_eq_some hroute
      rcases hothers row' hmem' with h | h
      · rw [hfound] at h
        cases h
      · rw [← hfound, h]

/-- The words of a table. -/
def tableWords (table : List (Row μ α ν)) : List α := table.flatMap fun row => words row.pattern

theorem match?_none {row : Row μ α ν} (hrow : row ∈ table) {method : μ}
    {p : List (PathPart α)}
    {args : List α} (hlength : args.length = arity p)
    (hfree : ∀ v ∈ tableWords table, ∀ a ∈ args, R.same v a = false)
    (h : ¬ (row.method = method ∧ mayMatch R row.pattern p = true)) :
    row.match? R method (fill p args) = none := by
  unfold Row.match?
  by_cases hmethod : row.method = method
  · have hno : mayMatch R row.pattern p = false :=
      Bool.eq_false_iff.mpr fun hyes => h ⟨hmethod, hyes⟩
    rw [if_pos hmethod, matchParts_of_not_mayMatch hlength ?_ hno]
    · rfl
    · intro v hv a ha
      exact hfree v (List.mem_flatMap.mpr ⟨row, hrow, hv⟩) a ha
  · rw [if_neg hmethod]

/-- **Requests get where they are meant to go.**  A path made from the pattern of a row is
    handled by that row, if no other one of its method may match it. -/
theorem route_fill (hsame : ∀ w, R.same w w = true) {row : Row μ α ν} (hrow : row ∈ table)
    (honly : ∀ row' ∈ table, row'.method = row.method ∧
      mayMatch R row'.pattern row.pattern = true → row' = row)
    {args : List α} (hlength : args.length = arity row.pattern)
    (hargs : ∀ a ∈ args, R.admits a = true)
    (hfree : ∀ v ∈ tableWords table, ∀ a ∈ args, R.same v a = false) :
    route R table row.method (fill row.pattern args) = some (row.name, args) := by
  have hself : row.match? R row.method (fill row.pattern args) = some (row.name, args) := by
    unfold Row.match?
    rw [if_pos rfl, matchParts_fill hsame hlength hargs]
    rfl
  refine route_of_only hrow hself fun row' hrow' => ?_
  by_cases h : row'.method = row.method ∧ mayMatch R row'.pattern row.pattern = true
  · rw [honly row' hrow' h]
    exact Or.inr hself
  · exact Or.inl (match?_none hrow' hlength hfree h)

/-- **Others get nowhere.**  A path that no row of its method may match. -/
theorem route_fill_none {method : μ} {p : List (PathPart α)}
    (hnone : ∀ row ∈ table, ¬ (row.method = method ∧ mayMatch R row.pattern p = true))
    {args : List α} (hlength : args.length = arity p)
    (hfree : ∀ v ∈ tableWords table, ∀ a ∈ args, R.same v a = false) :
    route R table method (fill p args) = none :=
  route_none fun row hrow => match?_none hrow hlength hfree (hnone row hrow)

end Tables

end PathRouting
