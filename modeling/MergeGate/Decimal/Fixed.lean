/-
Fixed places: a number rounded to a given count of decimal places, a tie going to the even
neighbour. The number is taken at its exact binary value.
-/
import MergeGate.Decimal.Shortest

namespace MergeGate.Decimal

/-- `num / den` rounded to the nearest integer, a tie to the even one. -/
def roundDiv (num den : Nat) : Nat :=
  let lo := num / den
  let r := num % den
  if 2 * r < den then lo
  else if den < 2 * r then lo + 1
  else if lo % 2 = 0 then lo else lo + 1

/-- A count of units of `10 ^ -places` as text. -/
def placesText (places n : Nat) : List Char :=
  let ds := Nat.toDigits 10 n
  let ds := List.replicate (places + 1 - ds.length) '0' ++ ds
  let cut := ds.length - places
  if places = 0 then ds else ds.take cut ++ '.' :: ds.drop cut

/-- A number with exactly `places` decimal places. -/
def writeFixed (places : Nat) (x : Float) : String :=
  let sign (negative : Bool) (t : List Char) := String.ofList (if negative then '-' :: t else t)
  match Shape.ofFloat x with
  | .nan => "nan"
  | .infinite negative => sign negative ['i', 'n', 'f']
  | .zero negative => sign negative (placesText places 0)
  | .finite negative b =>
    let (n, d) := scaled b.m 2 b.q
    sign negative (placesText places (roundDiv (n * Nat.pow 10 places) d))

end MergeGate.Decimal
