/-!
# White space and letter case

`isBlank` is the property White_Space of Unicode, and `trim` drops blanks at
both ends of a text.

`lowerAscii` is lower-casing as far as it can yield an ASCII letter: beside the
capital letters of ASCII only the dotted capital I and the sign for the kelvin
have a lower case that holds one, the former with a dot above behind it.  All
other characters are kept, since they neither are nor become ASCII letters.
-/

namespace TiePoints.Text

def blankRanges : List (Nat × Nat) :=
  [(0x09, 0x0d), (0x20, 0x20), (0x85, 0x85), (0xa0, 0xa0), (0x1680, 0x1680), (0x2000, 0x200a),
    (0x2028, 0x2029), (0x202f, 0x202f), (0x205f, 0x205f), (0x3000, 0x3000)]

def isBlank (c : Char) : Bool :=
  blankRanges.any fun r => r.1 ≤ c.toNat && c.toNat ≤ r.2

def trim (cs : List Char) : List Char :=
  ((cs.dropWhile isBlank).reverse.dropWhile isBlank).reverse

def lowerAscii (c : Char) : List Char :=
  if c = '\u0130' then ['i', '\u0307']
  else if c = '\u212a' then ['k']
  else [c.toLower]

end TiePoints.Text
