import TiePoints.Scalar

/-!
# Record values

Parameters are exchanged as values of six shapes.  A number is whole if it was
written without fraction and exponent and fits in a word; all others are real.

A record of named members has two written forms: an object, in which members
that the record does not have are ignored, and a list of the members in order,
which may end early but must not be longer.  A choice among names is written as
the name, or as an object with nothing but that name and an empty member.
-/

namespace TiePoints.Record

inductive Value (α : Type)
  | null
  | bool (b : Bool)
  | whole (n : Int)
  | real (x : α)
  | text (s : String)
  | list (items : List (Value α))
  | object (members : List (String × Value α))
  deriving Inhabited

namespace Value

variable {α : Type}

/-- The members of the given names, each of them if it is present. -/
def members? (names : List String) : Value α → Option (List (Option (Value α)))
  | list items =>
    if items.length ≤ names.length then
      some ((List.range names.length).map fun i => items[i]?)
    else none
  | object members => some (names.map fun name => members.lookup name)
  | _ => none

def name? : Value α → Option String
  | text s => some s
  | object [(s, null)] => some s
  | _ => none

def toIndex? : Value α → Option Nat
  | whole n => if 0 ≤ n ∧ n < Index.limit then some n.toNat else none
  | _ => none

def toScalar? [Scalar α] : Value α → Option α
  | whole n => some (if n < 0 then -Scalar.ofNat n.natAbs else Scalar.ofNat n.natAbs)
  | real x => some x
  | _ => none

end Value

end TiePoints.Record
