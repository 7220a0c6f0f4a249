import TiePoints.Decimal.Shortest

/-!
# Layout of decimals

A decimal is written positionally or with a power of ten.  A `Layout` fixes
which sizes take the power and whether a whole number keeps a point and a zero;
`plain` is the layout of messages and `exact` that of descriptions.
-/

namespace TiePoints.Decimal

structure Layout where
  /-- Whether whole numbers in positional form end in a point and a zero. -/
  keepsPoint : Bool
  /-- The powers of ten of the leading digit that are written positionally;
  all of them if there is no bound. -/
  positional : Option (Int × Int)

def Layout.plain : Layout := ⟨false, none⟩

/-- Positional from `0.0001` up to `10 ^ 16`. -/
def Layout.exact : Layout := ⟨true, some (-4, 15)⟩

namespace Layout

def isPositional (l : Layout) (leading : Int) : Bool :=
  match l.positional with
  | none => true
  | some (lo, hi) => lo ≤ leading && leading ≤ hi

/-- Digits without the zeros at their end, and the power of ten that makes up
for them. -/
def dropZeros : List Char → Int → List Char × Int
  | digits, exponent =>
    let kept := (digits.reverse.dropWhile (· == '0')).reverse
    (kept, exponent + (digits.length - kept.length : Nat))

def zeros (n : Nat) : List Char := List.replicate n '0'

/-- Digits times a power of ten, with all zeros written out. -/
def positionalForm (l : Layout) (digits : List Char) (exponent : Int) : List Char :=
  if 0 ≤ exponent then
    digits ++ zeros exponent.toNat ++ if l.keepsPoint then ['.', '0'] else []
  else
    let places := (-exponent).toNat
    if digits.length ≤ places then
      '0' :: '.' :: (zeros (places - digits.length) ++ digits)
    else
      digits.take (digits.length - places) ++ '.' :: digits.drop (digits.length - places)

/-- One digit, the others behind a point, and the power of ten. -/
def powerForm (digits : List Char) (leading : Int) : List Char :=
  let fraction :=
    match digits.drop 1 with
    | [] => []
    | rest => '.' :: rest
  digits.take 1 ++ fraction ++ 'e' :: (toString leading).toList

def writeMagnitude (l : Layout) (d : Scientific) : List Char :=
  let (digits, exponent) := dropZeros (Nat.toDigits 10 d.digits) d.exponent
  let leading := exponent + digits.length - 1
  if l.isPositional leading then l.positionalForm digits exponent else powerForm digits leading

def writeSign : Float.Model.UnpackedFloat.Sign → String
  | .positive => ""
  | .negative => "-"

def write (l : Layout) (x : Float) : String :=
  match x.toModel.unpack with
  | .notANumber => "NaN"
  | .infinity s => writeSign s ++ "inf"
  | .zero s => writeSign s ++ String.ofList (l.positionalForm ['0'] 0)
  | .finite s m e _ => writeSign s ++ String.ofList (l.writeMagnitude (shortest m e))

end Layout

end TiePoints.Decimal
