import ElvishOutline.Decimal.Binary64

/-!
# Decimals with a fixed number of places

The exact value of a binary64 number, rounded to so many places after the point, a tie to the even
neighbour. A negative number keeps its sign even when it rounds to zero.
-/

namespace ElvishOutline

namespace Binary64

/-- A natural number of the smallest unit, as digits with `places` of them after the point. -/
def pointed (places units : Nat) : List Char :=
  let digits := Nat.toDigits 10 units
  let padded := List.replicate (places + 1 - digits.length) '0' ++ digits
  let whole := padded.length - places
  padded.take whole ++ '.' :: padded.drop whole

/-- The number with the given places after the point. -/
def fixed (places : Nat) : Binary64 → List Char
  | nan => "NaN".toList
  | infinite negative => (if negative then "-inf" else "inf").toList
  | finite negative mantissa exponent =>
    let units :=
      roundDiv (mantissa * Nat.pow 2 exponent.toNat * Nat.pow 10 places)
        (Nat.pow 2 (-exponent).toNat)
    let magnitude := pointed places units
    if negative then '-' :: magnitude else magnitude

end Binary64

end ElvishOutline
