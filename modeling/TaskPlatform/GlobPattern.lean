import Mathlib.Data.List.Basic
import Mathlib.Data.List.Infix

/-! # Glob patterns as key stores match them

    `*` matches any run of characters, `?` one character, `[..]` one character of
    a class (`^` negates it, `a-z` is a range in either direction, a class that is
    never closed ends with the pattern), and a backslash takes the next character
    literally.

    A pattern is read into pieces first and the pieces are matched by recursion on
    them.  What users of patterns need is at the end: a pattern that is plain text
    followed by a final `*` matches exactly the keys with that prefix. -/

namespace GlobPattern

/-- One piece of a pattern. -/
inductive Piece where
  | star
  | one
  | char (c : Char)
  | oneOf (negated : Bool) (ranges : List (Char × Char))
  deriving DecidableEq, Repr

/-- Where the reader of a pattern stands: outside a class, right after the `[` of
    one, or inside one with the ranges found so far. -/
inductive Mode where
  | outside
  | opened
  | inside (negated : Bool) (ranges : List (Char × Char))

/-- The pieces of a pattern.  The reader takes one character at a time, or two
    after a backslash, or three for a range. -/
def pieces : Mode → List Char → List Piece
  | .outside, [] => []
  | .opened, [] => [.oneOf false []]
  | .inside n rs, [] => [.oneOf n rs]
  | .outside, '*' :: p => .star :: pieces .outside p
  | .outside, '?' :: p => .one :: pieces .outside p
  | .outside, '[' :: p => pieces .opened p
  | .outside, ['\\'] => [.char '\\']
  | .outside, '\\' :: c :: p => .char c :: pieces .outside p
  | .outside, c :: p => .char c :: pieces .outside p
  | .opened, '^' :: p => pieces (.inside true []) p
  | .opened, ']' :: p => .oneOf false [] :: pieces .outside p
  | .opened, '\\' :: c :: p => pieces (.inside false [(c, c)]) p
  | .opened, a :: '-' :: b :: p => pieces (.inside false [(a, b)]) p
  | .opened, c :: p => pieces (.inside false [(c, c)]) p
  | .inside n rs, ']' :: p => .oneOf n rs :: pieces .outside p
  | .inside n rs, '\\' :: c :: p => pieces (.inside n ((c, c) :: rs)) p
  | .inside n rs, a :: '-' :: b :: p => pieces (.inside n ((a, b) :: rs)) p
  | .inside n rs, c :: p => pieces (.inside n ((c, c) :: rs)) p

/-- `c` lies between the ends of a range, whichever comes first. -/
def inRange (c : Char) (r : Char × Char) : Bool :=
  (r.1 ≤ c && c ≤ r.2) || (r.2 ≤ c && c ≤ r.1)

/-- Match pieces against a whole key. -/
def matchPieces : List Piece → List Char → Bool
  | [], s => s.isEmpty
  | .star :: ps, s => s.tails.any (matchPieces ps)
  | .one :: ps, _ :: s => matchPieces ps s
  | .char c :: ps, d :: s => c == d && matchPieces ps s
  | .oneOf n rs :: ps, d :: s => (rs.any (inRange d) != n) && matchPieces ps s
  | _ :: _, [] => false

/-- The pattern matches the key. -/
def globMatch (pattern key : String) : Bool :=
  matchPieces (pieces .outside pattern.toList) key.toList

/-! ## Plain text -/

/-- A character that stands for itself. -/
def plainChar (c : Char) : Bool :=
  c != '*' && c != '?' && c != '[' && c != '\\'

/-- A text without special characters. -/
def Plain (s : String) : Prop := s.toList.all plainChar = true

instance (s : String) : Decidable (Plain s) :=
  inferInstanceAs (Decidable (s.toList.all plainChar = true))

theorem Plain.append {a b : String} (ha : Plain a) (hb : Plain b) : Plain (a ++ b) := by
  show (a ++ b).toList.all plainChar = true
  rw [String.toList_append, List.all_append, ha, hb]
  rfl

theorem pieces_plain (p q : List Char) (hp : p.all plainChar = true) :
    pieces .outside (p ++ q) = p.map .char ++ pieces .outside q := by
  induction p with
  | nil => rfl
  | cons c p ih =>
      rw [List.all_cons, Bool.and_eq_true] at hp
      have hc := hp.1
      simp only [plainChar, Bool.and_eq_true, bne_iff_ne, ne_eq] at hc
      obtain ⟨⟨⟨h1, h2⟩, h3⟩, h4⟩ := hc
      have hstep : pieces .outside (c :: (p ++ q))
          = .char c :: pieces .outside (p ++ q) := by
        rw [pieces.eq_def]
        split <;> simp_all
      rw [List.cons_append, hstep, ih hp.2]
      rfl

theorem matchPieces_text (p : List Char) (ps : List Piece) (s : List Char) :
    matchPieces (p.map .char ++ ps) s = true ↔
      ∃ rest, s = p ++ rest ∧ matchPieces ps rest = true := by
  induction p generalizing s with
  | nil => exact ⟨fun h => ⟨s, rfl, h⟩, fun ⟨_, hs, h⟩ => hs ▸ h⟩
  | cons c p ih =>
      cases s with
      | nil =>
          constructor
          · intro h
            exact nomatch h
          · rintro ⟨rest, hs, -⟩
            exact nomatch hs
      | cons d s =>
          show (c == d && matchPieces (p.map .char ++ ps) s) = true ↔ _
          rw [Bool.and_eq_true, ih]
          constructor
          · rintro ⟨hc, rest, rfl, h⟩
            exact ⟨rest, by rw [← eq_of_beq hc]; rfl, h⟩
          · rintro ⟨rest, hs, h⟩
            injection hs with hd hs
            exact ⟨by rw [hd]; exact beq_self_eq_true c, rest, hs, h⟩

theorem matchPieces_star (s : List Char) : matchPieces [.star] s = true := by
  show s.tails.any (matchPieces []) = true
  rw [List.any_eq_true]
  exact ⟨[], by simp, rfl⟩

/-- **Prefix patterns.**  Plain text and a final `*` match exactly the keys that
    start with the text. -/
theorem globMatch_prefix_star {text key : String} (h : Plain text) :
    globMatch (text ++ "*") key = true ↔ text.toList <+: key.toList := by
  have hpieces : pieces .outside (text ++ "*").toList
      = text.toList.map .char ++ [.star] := by
    rw [String.toList_append, pieces_plain _ _ h]
    rfl
  show matchPieces (pieces .outside (text ++ "*").toList) key.toList = true ↔ _
  rw [hpieces, matchPieces_text]
  constructor
  · rintro ⟨rest, hs, -⟩
    exact ⟨rest, hs.symm⟩
  · rintro ⟨rest, hs⟩
    exact ⟨rest, hs.symm, matchPieces_star rest⟩

example : globMatch "h[a-c^]l?o*" "hblxo world" = true := by decide

end GlobPattern
