import TiePoints.LeastSquares.Bidiagonal
import TiePoints.LeastSquares.Rotation

/-!
# Singular values of a bidiagonal design

The entries above the diagonal are made to vanish by rotations of neighbouring
directions.  An entry that is negligible against its neighbours on the diagonal
is dropped, which splits the diagonal into blocks, and a negligible entry on
the diagonal is split off by turning away the entries beside it.  The last
block that is not yet diagonal is treated until it shrinks: a block of two is
solved at once, and a longer one is turned at its head as if an estimate of an
eigenvalue had been taken off its square, and then from there down the diagonal
until it is bidiagonal again.
-/

namespace TiePoints

/-- A design on its way to diagonal form, by the entries on the diagonal and
above it and by the directions in which they stand. -/
structure Chain (m n : Nat) where
  diagonal : Array Float
  above : Array Float
  left : Array (Vector Float m)
  right : Array (Vector Float n)

variable {m n : Nat}

namespace Chain

/-- A magnitude up to this counts as nothing beside one. -/
def precision : Float := Scalar.epsilon * 5

def ofBidiagonal (b : Bidiagonal m n) : Chain m n :=
  { diagonal := b.diagonal.toArray
    above := b.above.toArray
    left := b.left.toArray
    right := b.right.toArray }

def entry (s : Chain m n) (i : Nat) : Float := s.diagonal.getD i 0

def link (s : Chain m n) (i : Nat) : Float := s.above.getD i 0

def setEntry (s : Chain m n) (i : Nat) (x : Float) : Chain m n :=
  { s with diagonal := s.diagonal.setIfInBounds i x }

def setLink (s : Chain m n) (i : Nat) (x : Float) : Chain m n :=
  { s with above := s.above.setIfInBounds i x }

def turnPair {k : Nat} (vs : Array (Vector Float k)) (i j : Nat) (r : Rotation) :
    Array (Vector Float k) :=
  match vs[i]?, vs[j]? with
  | some u, some v =>
    let (u', v') := r.turnVectors u v
    (vs.setIfInBounds i u').setIfInBounds j v'
  | _, _ => vs

def turnLeft (s : Chain m n) (i j : Nat) (r : Rotation) : Chain m n :=
  { s with left := turnPair s.left i j r }

def turnRight (s : Chain m n) (i j : Nat) (r : Rotation) : Chain m n :=
  { s with right := turnPair s.right i j r }

/-- Whether the link between entries `i` and `i + 1` is negligible. -/
def isLoose (s : Chain m n) (i : Nat) : Bool :=
  (s.link i).abs ≤ precision * ((s.entry (i + 1)).abs + (s.entry i).abs)

def isVanishing (s : Chain m n) (i : Nat) : Bool := (s.entry i).abs ≤ precision

/-- Turns `x`, which stands in row `i` above entry `k`, into that entry.  This
leaves something in row `i` above the next entry, and so on down to `stop`. -/
def absorbDown (s : Chain m n) (i k stop : Nat) (x : Float) : Nat → Chain m n
  | 0 => s
  | steps + 1 =>
    match Rotation.ontoSecond x (s.entry k) with
    | none => s
    | some (r, place) =>
      let s := (s.setEntry k place).turnLeft i k r
      if k = stop then s
      else
        let x := -r.sine * s.link k
        (s.setLink k (s.link k * r.cosine)).absorbDown i (k + 1) stop x steps

/-- Clears row `i`, whose entry on the diagonal vanishes. -/
def clearRow (s : Chain m n) (i stop : Nat) : Chain m n :=
  (s.setLink i 0).absorbDown i (i + 1) stop (s.link i) (stop - i)

/-- Turns `y`, which stands above entry `j` in row `k`, into entry `k`.  This
leaves something above entry `j` in the row before, and so on up to the top. -/
def absorbUp (s : Chain m n) (j : Nat) (y : Float) : Nat → Chain m n
  | 0 => s
  | k + 1 =>
    match Rotation.ontoFirst (s.entry k) y with
    | none => s
    | some (r, place) =>
      let s := (s.setEntry k place).turnRight k j r
      if k = 0 then s
      else
        let y := r.sine * s.link (k - 1)
        (s.setLink (k - 1) (s.link (k - 1) * r.cosine)).absorbUp j y k

/-- Clears the link in row `i` together with the column it stands in. -/
def clearColumn (s : Chain m n) (i : Nat) : Chain m n :=
  (s.setLink i 0).absorbUp (i + 1) (s.link i) (i + 1)

/-- Splits off a vanishing entry `i`, where `stop` is the last entry of the
block that it stands in. -/
def splitAt (s : Chain m n) (i stop : Nat) : Chain m n :=
  let s := (s.setEntry i 0).clearRow i stop
  if i = 0 then s else s.clearColumn (i - 1)

/-- The last entry that belongs to a block of two or more, counted from one and
zero if there is none, with everything after it split off. -/
def trim (s : Chain m n) : Nat → Chain m n × Nat
  | 0 => (s, 0)
  | i + 1 =>
    if s.link i == 0 || s.isLoose i then (s.setLink i 0).trim i
    else if s.isVanishing i then (s.splitAt i (i + 1)).trim i
    else if s.isVanishing (i + 1) then ((s.setEntry (i + 1) 0).clearColumn i).trim i
    else (s, i + 1)

/-- The first entry of the block that ends with entry `stop`, where entries
from `i` on are known to belong to it. -/
def head (s : Chain m n) (stop : Nat) : Nat → Chain m n × Nat
  | 0 => (s, 0)
  | i + 1 =>
    if s.isLoose i then (s.setLink i 0, i + 1)
    else if s.isVanishing i then (s.splitAt i stop, i + 1)
    else s.head stop i

/-- The last block of two entries or more up to a given entry, by its first and
last entry; these agree if there is none. -/
def lastBlock (s : Chain m n) (stop : Nat) : Chain m n × Nat × Nat :=
  match s.trim stop with
  | (s, 0) => (s, 0, 0)
  | (s, stop + 1) =>
    let (s, start) := s.head (stop + 1) stop
    (s, start, stop + 1)

/-- The eigenvalue of the symmetric matrix with diagonal `a`, `d` and `b` beside
it that is nearer to `d`. -/
def nearestEigenvalue (a b d : Float) : Float :=
  let square := b * b
  if square == 0 then d
  else
    let half := (a - d) / 2
    let root := (half * half + square).sqrt
    d - square / (half + (if half < 0 then -1 else 1) * root)

/-- Where the entries of a block of three or more start to be turned: the head
of the squared block less an estimate of its last eigenvalue. -/
def shiftedHead (s : Chain m n) (start stop : Nat) : Float × Float :=
  let p := s.entry (stop - 1)
  let q := s.entry stop
  let f := s.link (stop - 1)
  let g := s.link (stop - 2)
  let shift := nearestEigenvalue (p * p + g * g) (p * f) (q * q + f * f)
  (s.entry start * s.entry start - shift, s.entry start * s.link start)

/-- Rotations from entry `k` of a block on: the one on the right takes `(x, y)`
to the first axis, the one on the left clears what that leaves below the
diagonal, and what is left to the right of the link is the next `y`. -/
def chase (s : Chain m n) (start stop k : Nat) (x y : Float) : Nat → Chain m n
  | 0 => s
  | steps + 1 =>
    match Rotation.ontoFirst x y with
    | none => s
    | some (right, place) =>
      let s := if start < k then s.setLink (k - 1) place else s
      let beyond := if k + 1 = stop then 0 else s.link (k + 1)
      let (a, b) := right.turn (s.entry k) (s.link k)
      let (c, d) := right.turn 0 (s.entry (k + 1))
      let (left, a) := (Rotation.ontoFirst a c).getD (Rotation.identity, a)
      let (b, d) := left.turn b d
      let (y, z) := left.turn 0 beyond
      let s := (s.turnRight k (k + 1) right).turnLeft k (k + 1) left
      let s := ((s.setEntry k a).setEntry (k + 1) d).setLink k b
      let s := if k + 1 = stop then s else s.setLink (k + 1) z
      s.chase start stop (k + 1) b y steps

/-- Makes the block of two entries from `i` on diagonal. -/
def solvePair (s : Chain m n) (i : Nat) : Chain m n :=
  let r := Rotation.diagonalize (s.entry i) (s.link i) (s.entry (i + 1))
  let s := ((s.setEntry i r.first).setEntry (i + 1) r.second).setLink i 0
  (s.turnLeft i (i + 1) r.left.inverse).turnRight i (i + 1) r.right.inverse

/-- Treats the last block, and finds what is the last block then. -/
def round (s : Chain m n) (start stop : Nat) : Chain m n × Nat × Nat :=
  if start + 1 = stop then (s.solvePair start).lastBlock (stop - 1)
  else
    let (x, y) := s.shiftedHead start stop
    (s.chase start stop start x y (stop - start)).lastBlock stop

/-- Goes on from round to round until no block is left.  The rounds are counted in words.  A block
whose entries have become undefined never shrinks, so that its rounds run out and there is no
result. -/
def diagonalize (s : Chain m n) (start stop : Nat) : (rounds : Nat) → Option (Chain m n)
  | 0 => none
  | rounds + 1 =>
    if start = stop then some s
    else
      let (s, start, stop) := s.round start stop
      s.diagonalize start stop rounds

def solved (s : Chain m n) : Option (Chain m n) :=
  let (s, start, stop) := s.lastBlock (s.diagonal.size - 1)
  s.diagonalize start stop Index.limit

/-- The triplets of a diagonal chain, with all values times `scale` and a
negative value made positive by reversing its direction on the left. -/
def triplets (s : Chain m n) (scale : Float) : List (SingularTriplet Float m n) :=
  (s.diagonal.toList.zip (s.left.toList.zip s.right.toList)).map fun (d, left, right) =>
    let value := d * scale
    if value < 0 then { value := -value, left := left.map (-·), right }
    else { value, left, right }

end Chain

/-- Puts a triplet behind those whose value is at least as large. -/
def insertDescending (t : SingularTriplet Float m n) :
    List (SingularTriplet Float m n) → List (SingularTriplet Float m n)
  | [] => [t]
  | s :: ts => if s.value < t.value then t :: s :: ts else s :: insertDescending t ts

/-- The triplets from the largest value to the smallest.  There is no such order
of two values or more if one of them is undefined. -/
def descending? (ts : List (SingularTriplet Float m n)) :
    Option (List (SingularTriplet Float m n)) :=
  if 1 < ts.length && ts.any fun t => t.value.isNaN then none
  else some (ts.foldl (fun sorted t => insertDescending t sorted) [])

namespace Design

def largestEntry (d : Design Float m n) : Float :=
  d.foldl (fun acc c => c.foldl (fun acc x => if acc < x.abs then x.abs else acc) acc) 0

/-- The triplets of a design that is no wider than high.  Its largest entry is
divided out first, so that no square of an entry that counts is out of range. -/
def tripletsOfTall? (d : Design Float m n) : Option (List (SingularTriplet Float m n)) := do
  let scale := d.largestEntry
  let scaled := if scale == 0 then d else d.map fun c => c.map (· / scale)
  let chain ← (Chain.ofBidiagonal (Bidiagonal.ofDesign scaled)).solved
  descending? (chain.triplets scale)

def triplets? (d : Design Float m n) : Option (List (SingularTriplet Float m n)) :=
  if m < n then
    (tripletsOfTall? d.transpose).map fun ts => ts.map fun t => ⟨t.value, t.right, t.left⟩
  else tripletsOfTall? d

end Design

instance : Decomposition Float where
  norm := Bidiagonal.norm
  dot := LeastSquares.dot
  triplets? := Design.triplets?

end TiePoints
