import TiePoints.Whole

/-!
# Positions and counts

Positions and counts are 64-bit words, so a sum or a product of them may be no
word.  `Index.add?` and `Index.mul?` tell by having no result.  Sizes that a
caller asks for are tested in this way, and a request beyond the range of words
is refused.  Elsewhere no such test is made, and the arithmetic is that of a
build with overflow checks: a sum or a product that is no word ends the
computation, as `Index.add` and `Index.mul` in `TiePoints.Error` say, and never
comes out as another word.
-/

namespace TiePoints.Index

/-- The number of positions; each position is below it. -/
def limit : Nat := Nat.pow 2 64

/-- The number of bytes that one piece of storage may not reach. -/
def storageLimit : Nat := Nat.pow 2 63

/-- The sum of two words, if it is a word. -/
def add? (a b : Nat) : Option Nat := if a + b < limit then some (a + b) else none

/-- The product of two words, if it is a word. -/
def mul? (a b : Nat) : Option Nat := if a * b < limit then some (a * b) else none

/-- Whether `count` positions from `start` on end behind the bound.  An end that
is no word is behind every bound. -/
def exceeds (start count bound : Nat) : Bool :=
  match add? start count with
  | some stop => bound < stop
  | none => true

theorem not_exceeds_iff {start count bound : Nat} :
    ¬ exceeds start count bound ↔ start + count ≤ bound ∧ start + count < limit := by
  unfold exceeds add?
  by_cases h : start + count < limit
  · simp [h]
  · simp [h]

/-- Addition that stops at the last position. -/
def addSaturating (a b : Nat) : Nat := min (a + b) (limit - 1)

end Index

/-- The position nearest to the number; zero if it is undefined. -/
def Whole.toIndex (w : Whole) : Nat :=
  (w.clamp 0 ((Index.limit : Int) - 1)).toNat

end TiePoints
