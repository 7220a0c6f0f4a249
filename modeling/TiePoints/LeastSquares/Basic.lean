import TiePoints.Error

/-!
# Least squares

An overdetermined system `design * c = values` is solved through the singular
value decomposition of its design.  The columns of the design differ in size by
many orders of magnitude when they hold powers of coordinates, so each is first
divided by its norm, and the solution is divided by the norms again at the end.
Of the scaled system the solution of least norm is taken, where directions with
a negligible singular value count as having none.

How norms, inner products and singular triplets are found is left to
`Decomposition`.  What the solution is made of is not: a component along the
right direction of each triplet whose value is not negligible.
-/

namespace TiePoints

/-- A design by its columns. -/
abbrev Design (α : Type) (m n : Nat) := Vector (Vector α m) n

/-- A singular value with its two directions.  A design is the sum, over its
triplets, of the value times the product of `left` with `right` transposed. -/
structure SingularTriplet (α : Type) (m n : Nat) where
  value : α
  left : Vector α m
  right : Vector α n
  deriving DecidableEq, Repr

def Design.transpose {α : Type} {m n : Nat} (d : Design α m n) : Design α n m :=
  Vector.ofFn fun i => Vector.ofFn fun j => d[j][i]

class Decomposition (α : Type) where
  norm : {m : Nat} → Vector α m → α
  dot : {m : Nat} → Vector α m → Vector α m → α
  /-- The triplets of a design, from the largest value to the smallest.  There are none if values
  are undefined and have no order, or if the search for them runs out of rounds. -/
  triplets? : {m n : Nat} → Design α m n → Option (List (SingularTriplet α m n))

namespace LeastSquares

variable {α : Type} [Scalar α] {m n : Nat}

def scaleColumns (d : Design α m n) (scales : Vector α n) : Design α m n :=
  d.zipWith (fun c s => c.map (· / s)) scales

def largestValue (ts : List (SingularTriplet α m n)) : α :=
  ts.foldl (fun acc t => if acc < t.value then t.value else acc) Scalar.zero

/-- Singular values up to the cutoff count as zero.  It is the largest of them
times the longer side of the design, in units of the precision. -/
def cutoff (side : Nat) (largest : α) : α := largest * Scalar.ofNat side * Scalar.epsilon

variable [Decomposition α]

/-- What a column is divided by: its norm, or one if it is zero. -/
def columnScale (c : Vector α m) : α :=
  let norm := Decomposition.norm c
  if Scalar.zero < norm then norm else Scalar.one

def columnScales (d : Design α m n) : Vector α n := d.map columnScale

/-- How far the solution goes in the direction of a triplet: the component of
the values over the singular value, and not at all if that is negligible. -/
def factor (cut : α) (values : Vector α m) (t : SingularTriplet α m n) : α :=
  if cut < t.value then Decomposition.dot t.left values / t.value else Scalar.zero

/-- The solution of least norm. -/
def solve (ts : List (SingularTriplet α m n)) (cut : α) (values : Vector α m) : Vector α n :=
  ts.foldl
    (fun acc t =>
      let f := factor cut values t
      acc.zipWith (fun a r => a + r * f) t.right)
    (Vector.replicate n Scalar.zero)

end LeastSquares

open LeastSquares in
/-- The coefficients for which the columns of the design, taken that often, come
nearest to the values. -/
def leastSquares {α : Type} [Scalar α] [Decomposition α] {m n : Nat} (d : Design α m n)
    (values : Array α) : Except (Error α) (Vector α n) :=
  if h : values.size = m then
    if m = 0 ∨ n = 0 then .error (.breach (.emptySystem m n))
    else
      let scales := columnScales d
      match Decomposition.triplets? (scaleColumns d scales) with
      | none => .error (.breach (.undefinedSystem m n))
      | some triplets =>
        let largest := largestValue triplets
        if !Scalar.isFinite largest || Scalar.sameValue largest Scalar.zero then
          .error (.fit .degenerate)
        else
          let solution := solve triplets (cutoff (max m n) largest) ⟨values, h⟩
          .ok (solution.zipWith (· / ·) scales)
  else .error (.fit (.rowCount m values.size))

end TiePoints
