import TiePoints.Region
import TiePoints.Scalar

/-!
# Failures

A failure is recorded by its cause, with the numbers that the cause is about.
Its wording is a function of the cause and lives in `TiePoints.Error.Message`.

A `Breach` is not an answer to a bad request but the end of the computation on
a broken promise: a sum or a product that is no position, a lookup made for a
larger grid, a system of equations that is empty or has no decomposition, or a
table that no storage can hold.  It has no wording.
-/

namespace TiePoints

inductive Direction
  | x
  | y
  deriving DecidableEq, Repr

inductive GeometryFault (α : Type)
  | tooFewPoints (width height : Nat)
  | sampleCount (given width height : Nat)
  | spacing (along : Direction) (value : α)
  | offsets (x y : α)
  | outsideGrid (region : Region) (width height : Nat)
  | blockBeyondRange (block : Region)
  | storage (pixels : Nat)
  | shape
  | zeroStep (x y : Nat)
  | emptyRegion (width height : Nat)
  | unknownCode (code : Int)
  | unknownCycle (lo hi : α)
  deriving DecidableEq, Repr

inductive FitFault
  | rowCount (rows values : Nat)
  | degenerate
  deriving DecidableEq, Repr

inductive Breach
  | sum (a b : Nat)
  | product (a b : Nat)
  | sampleIndex (index count : Nat)
  | rowIndex (index count : Nat)
  | emptySystem (rows columns : Nat)
  | undefinedSystem (rows columns : Nat)
  | cellTable (columns : Nat)
  | valueTable (pixels : Nat)
  | coefficientTable (rows columns : Nat)
  deriving DecidableEq, Repr

inductive Error (α : Type)
  | geometry (fault : GeometryFault α)
  | unsupportedMode (name : String)
  | readOnly (grid : String)
  | bufferTooSmall (required actual : Nat)
  | fit (fault : FitFault)
  | breach (cause : Breach)
  deriving DecidableEq, Repr

/-! ## Promises -/

variable {α : Type}

namespace Index

def add (a b : Nat) : Except (Error α) Nat :=
  match add? a b with
  | some n => .ok n
  | none => .error (.breach (.sum a b))

def mul (a b : Nat) : Except (Error α) Nat :=
  match mul? a b with
  | some n => .ok n
  | none => .error (.breach (.product a b))

variable {a b n : Nat}

theorem add_eq_of_lt (h : a + b < limit) : (add a b : Except (Error α) Nat) = .ok (a + b) := by
  rw [add, add?, if_pos h]

theorem mul_eq_of_lt (h : a * b < limit) : (mul a b : Except (Error α) Nat) = .ok (a * b) := by
  rw [mul, mul?, if_pos h]

theorem add_eq_of_le (h : limit ≤ a + b) :
    (add a b : Except (Error α) Nat) = .error (.breach (.sum a b)) := by
  rw [add, add?, if_neg (Nat.not_lt.2 h)]

theorem mul_eq_of_le (h : limit ≤ a * b) :
    (mul a b : Except (Error α) Nat) = .error (.breach (.product a b)) := by
  rw [mul, mul?, if_neg (Nat.not_lt.2 h)]

theorem add_eq_ok_iff : (add a b : Except (Error α) Nat) = .ok n ↔ a + b < limit ∧ a + b = n := by
  rcases Nat.lt_or_ge (a + b) limit with h | h
  · simp [add_eq_of_lt h, h]
  · simp [add_eq_of_le h, Nat.not_lt.2 h]

theorem mul_eq_ok_iff : (mul a b : Except (Error α) Nat) = .ok n ↔ a * b < limit ∧ a * b = n := by
  rcases Nat.lt_or_ge (a * b) limit with h | h
  · simp [mul_eq_of_lt h, h]
  · simp [mul_eq_of_le h, Nat.not_lt.2 h]

end Index

end TiePoints
