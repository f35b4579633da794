import MdxLocalization.Number.Binary64
import MdxLocalization.Text.Basic

/-!
# The shortest decimal form of a number

A finite number is written with the fewest decimal digits that read back as the same number, and
with the nearest such digits when there are several, a tie going to the even digit. For each count
of digits the two neighbours of the value on that decimal grid are tried in exact arithmetic;
seventeen digits always suffice.

Numbers from `10 ^ -4` up to `10 ^ 16` are written positionally and always show a point; others have
an exponent of at least two digits.
-/

namespace MdxLocalization.Binary64

/-- A decimal value: `digits` read as a natural number, times ten to the power `exponent`. -/
structure Decimal where
  digits : Nat
  exponent : Int

/-- How many decimal places a ratio below one must be moved until it reaches one. -/
def leadingZeros (num den : Nat) : Nat → Nat
  | 0 => 0
  | fuel + 1 => if den ≤ num then 0 else leadingZeros (num * 10) den fuel + 1

/-- The `k` with `10 ^ (k - 1) ≤ num / den < 10 ^ k`, for a positive ratio. -/
def decimalMagnitude (num den : Nat) : Int :=
  if den ≤ num then (Nat.toDigits 10 (num / den)).length
  else 1 - (leadingZeros num den 400 : Nat)

/-- The decimal with `count` digits nearest to `num / den` that reads back as `value`, if one of the
two neighbours of the ratio does. -/
def neighbour? (value : Binary64) (num den : Nat) (magnitude : Int) (count : Nat) :
    Option Decimal :=
  let unit : Int := magnitude - count
  let (a, b) :=
    if 0 ≤ unit then (num, den * Nat.pow 10 unit.toNat)
    else (num * Nat.pow 10 (-unit).toNat, den)
  let low := a / b
  let reads := fun n => ofDecimal false n unit == value
  let lowNearer := 2 * (a % b) < b || (2 * (a % b) == b && low % 2 == 0)
  if reads low && (lowNearer || !reads (low + 1)) then some ⟨low, unit⟩
  else if reads (low + 1) then some ⟨low + 1, unit⟩
  else none

def shortest (mantissa : Nat) (exponent : Int) : Decimal :=
  let (num, den) := ratio mantissa exponent
  let value := Binary64.finite false mantissa exponent
  let magnitude := decimalMagnitude num den
  ((List.range 17).findSome? fun i => neighbour? value num den magnitude (i + 1)).getD ⟨0, 0⟩

/-- The text of a decimal: positional or with an exponent, by the size of the number. -/
def Decimal.toText (d : Decimal) : Text :=
  let all := Text.ofNat d.digits
  let point : Int := all.length + d.exponent
  let digits := Text.dropEndWhile (· == '0') all
  let count := digits.length
  if -4 < point && point ≤ 16 then
    if point ≤ 0 then '0' :: '.' :: List.replicate (-point).toNat '0' ++ digits
    else if (count : Int) ≤ point then
      digits ++ List.replicate (point.toNat - count) '0' ++ ['.', '0']
    else digits.take point.toNat ++ '.' :: digits.drop point.toNat
  else
    let e := point - 1
    let exponent := Text.ofNat e.natAbs
    let padded := if exponent.length < 2 then '0' :: exponent else exponent
    digits.take 1 ++ (if 1 < count then '.' :: digits.drop 1 else []) ++
      'e' :: (if e < 0 then '-' else '+') :: padded

/-- The text of a number; the names of the special values are given by the caller. -/
def toText (nanText infinityText : Text) : Binary64 → Text
  | .nan => nanText
  | .infinite negative => (if negative then ['-'] else []) ++ infinityText
  | .finite negative mantissa exponent =>
    (if negative then ['-'] else []) ++
      (if mantissa = 0 then ['0', '.', '0'] else (shortest mantissa exponent).toText)

end MdxLocalization.Binary64
