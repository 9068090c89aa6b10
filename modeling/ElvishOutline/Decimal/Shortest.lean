import ElvishOutline.Decimal.Binary64

/-!
# The shortest decimal of a binary64 number

A number is written with the fewest digits that read back as the same number; of two such decimals
the nearer is taken, and the even one at equal distance. The decimals that read back form an
interval around the number, whose ends belong to it when the mantissa is even.

How the digits are laid out is a matter of the format, given by a `ShortestStyle`.
-/

namespace ElvishOutline

/-- The decimal `digits * 10 ^ exponent`. -/
structure Decimal where
  digits : Nat
  exponent : Int
  deriving DecidableEq, Repr

namespace Decimal

/-- The power of ten of the leading digit of a positive fraction. -/
def leadingPower (num den : Nat) : Int :=
  let high : Int := digitCount num - digitCount den
  if den * Nat.pow 10 high.toNat ≤ num * Nat.pow 10 (-high).toNat then high else high - 1

/-- The power of ten of the leading digit of `mantissa * 2 ^ exponent`. -/
def leadingPowerOf (mantissa : Nat) (exponent : Int) : Int :=
  leadingPower (mantissa * Nat.pow 2 exponent.toNat) (Nat.pow 2 (-exponent).toNat)

/-- The decimal with the given number of digits that reads back as `mantissa * 2 ^ exponent`, if
there is one. Quarters of a unit of the last binary place are counted, since below a power of two
the numbers stand twice as close. -/
def withDigits? (mantissa : Nat) (exponent : Int) (count : Nat) : Option Decimal :=
  let power := leadingPowerOf mantissa exponent - (count - 1 : Nat)
  let quarter := exponent - 2
  let unit := Nat.pow 2 quarter.toNat * Nat.pow 10 (-power).toNat
  let step := Nat.pow 2 (-quarter).toNat * Nat.pow 10 power.toNat
  let low :=
    if mantissa = Nat.pow 2 52 ∧ Binary64.minExponent < exponent then 4 * mantissa - 1
    else 4 * mantissa - 2
  let high := 4 * mantissa + 2
  -- A number halfway between two others is read as the even one.
  let readsBack (digits : Nat) : Bool :=
    if mantissa % 2 = 0 then low * unit ≤ digits * step && digits * step ≤ high * unit
    else low * unit < digits * step && digits * step < high * unit
  let below := 4 * mantissa * unit / step
  let nearest := roundDiv (4 * mantissa * unit) step
  let other := if nearest = below then below + 1 else below
  let chosen :=
    if readsBack nearest then some nearest else if readsBack other then some other else none
  -- Rounding up can give one digit more, which is then a power of ten.
  chosen.map fun digits =>
    if digits = Nat.pow 10 count then ⟨1, power + count⟩ else ⟨digits, power⟩

/-- The shortest decimal that reads back as `mantissa * 2 ^ exponent`. Seventeen digits always
do. -/
def shortest (mantissa : Nat) (exponent : Int) : Decimal :=
  if mantissa = 0 then ⟨0, 0⟩
  else ((List.range 17).findSome? fun n => withDigits? mantissa exponent (n + 1)).getD ⟨0, 0⟩

end Decimal

/-- How a format lays out numbers. Numbers whose leading digit stands for a power of ten from
`positionalFrom` to `positionalTo` are written without an exponent. -/
structure ShortestStyle where
  positionalFrom : Int
  positionalTo : Int
  positiveExponentSign : String
  nan : String
  infinity : String
  negativeInfinity : String

namespace ShortestStyle

/-- A decimal without an exponent, always with a point. -/
def positional (digits : List Char) (power : Int) : List Char :=
  if power < 0 then '0' :: '.' :: List.replicate (-power - 1).toNat '0' ++ digits
  else
    let whole := power.toNat + 1
    let fraction := digits.drop whole
    digits.take whole ++ List.replicate (whole - digits.length) '0' ++
      '.' :: (if fraction = [] then ['0'] else fraction)

/-- A decimal with an exponent; the point is left out after a single digit. -/
def scientific (style : ShortestStyle) (digits : List Char) (power : Int) : List Char :=
  let fraction := digits.drop 1
  let sign := if power < 0 then "-" else style.positiveExponentSign
  digits.take 1 ++ (if fraction = [] then [] else '.' :: fraction) ++ 'e' :: sign.toList ++
    Nat.toDigits 10 power.natAbs

/-- The text of a number. -/
def write (style : ShortestStyle) : Binary64 → List Char
  | .nan => style.nan.toList
  | .infinite negative => (if negative then style.negativeInfinity else style.infinity).toList
  | .finite negative mantissa exponent =>
    let decimal := Decimal.shortest mantissa exponent
    let digits := Nat.toDigits 10 decimal.digits
    let power := decimal.exponent + (digits.length - 1 : Nat)
    let magnitude :=
      if style.positionalFrom ≤ power ∧ power ≤ style.positionalTo then positional digits power
      else style.scientific digits power
    if negative then '-' :: magnitude else magnitude

end ShortestStyle

end ElvishOutline
