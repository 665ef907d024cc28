/-
Numbers read from text. An integer is a sign and decimal digits of any script, a single underscore
allowed between two digits; a floating point number adds a fraction, an exponent and the names of
infinity and not-a-number. Blanks around either are ignored.
-/
import MergeGate.Text.Blank
import MergeGate.Text.Digit
import MergeGate.Text.Quoted

namespace MergeGate.Decimal

open MergeGate.Text

/-- Digits of a run in which single underscores may stand between digits; `none` when the text is
not such a run. -/
def digitRun? (digit : Char → Option Nat) : List Char → Option (List Nat)
  | [] => none
  | [c] => (digit c).map ([·])
  | c :: '_' :: rest => do
    let d ← digit c
    let ds ← digitRun? digit rest
    return d :: ds
  | c :: rest => do
    let d ← digit c
    let ds ← digitRun? digit rest
    return d :: ds

/-- Split an optional sign off: `true` means minus. -/
def splitSign : List Char → Bool × List Char
  | '-' :: rest => (true, rest)
  | '+' :: rest => (false, rest)
  | cs => (false, cs)

/-- The greatest number of digits that an integer may be written with. -/
def maxDigits : Nat := 4300

/-- The integer written by a text. -/
def readInt? (s : String) : Option Int :=
  let (negative, body) := splitSign (trim s.toList)
  (digitRun? digitValue? body).map fun ds =>
    let n : Int := ofDigits ds
    if negative then -n else n

/-- Does an integer have more digits than may be written? -/
def isTooLong (n : Int) : Bool := decide (Nat.pow 10 maxDigits ≤ n.natAbs)

/-- The complaint about an integer with too many digits to write. -/
def tooLongToWrite : String :=
  "Exceeds the limit (" ++ toString maxDigits ++ " digits) for integer string conversion" ++
    "; use sys.set_int_max_str_digits() to increase the limit"

/-- The complaint about a text with too many digits to read. -/
def tooLongToRead (digits : Nat) : String :=
  "Exceeds the limit (" ++ toString maxDigits ++ " digits) for integer string conversion: value has "
    ++ toString digits ++ " digits; use sys.set_int_max_str_digits() to increase the limit"

/-- The complaint about a text that is no integer; the text is cut off after two hundred
characters. -/
def notInteger (base : Nat) (s : String) : String :=
  "invalid literal for int() with base " ++ toString base ++ ": " ++
    String.ofList ((Text.quoted s).toList.take 200)

/-- The number of digits that a text begins with, after its sign; none when an underscore stands
where none may. -/
def leadingDigits (s : String) : Option Nat :=
  let (_, body) := splitSign (trim s.toList)
  let run := body.takeWhile fun c => c == '_' || (digitValue? c).isSome
  (digitRun? digitValue? run).map (·.length)

/-- The integer written by a text of moderate length, or what is wrong with the text. The length is
looked at before what follows the digits. -/
def readIntOr (s : String) : Except String Int :=
  match (leadingDigits s).filter (maxDigits < ·) with
  | some n => .error (tooLongToRead n)
  | none => match readInt? s with
    | some n => .ok n
    | none => .error (notInteger 10 s)

/-- `d * 10 ^ e`, rounded to the nearest floating point number. Far out of range the exponent
decides alone, so no huge power is formed. -/
def scale (d : Nat) (e : Int) : Float :=
  let w : Int := (Nat.toDigits 10 d).length
  if d = 0 then 0.0
  else if 400 < w + e then 1.0 / 0.0
  else if w + e < -400 then 0.0
  else if 0 ≤ e then Float.ofScientific (d * Nat.pow 10 e.toNat) false 0
  else Float.ofScientific d true (-e).toNat

/-- Cut a text at the first character that satisfies `p`. -/
def cutAt (p : Char → Bool) (cs : List Char) : List Char × Option (List Char) :=
  match cs.dropWhile fun c => !p c with
  | [] => (cs, none)
  | _ :: rest => (cs.takeWhile fun c => !p c, some rest)

/-- A run of digits that may be empty. -/
def optionalRun? (digit : Char → Option Nat) (cs : List Char) : Option (List Nat) :=
  if cs.isEmpty then some [] else digitRun? digit cs

/-- An unsigned decimal with optional fraction and exponent; one digit must stand before or after
the point. -/
def readDecimal? (digit : Char → Option Nat) (cs : List Char) : Option Float := do
  let (mantissa, power?) := cutAt (fun c => c == 'e' || c == 'E') cs
  let (whole, fraction?) := cutAt (· == '.') mantissa
  let w ← optionalRun? digit whole
  let f ← optionalRun? digit (fraction?.getD [])
  if w.isEmpty && f.isEmpty then none
  let e : Int ← match power? with
    | none => some 0
    | some p =>
      let (negative, body) := splitSign p
      (digitRun? digit body).map fun ds =>
        -- a power beyond a few thousand digits' reach only needs its sign
        let ds := ds.dropWhile (· == 0)
        let n : Int := if 12 < ds.length then 1000000000000 else ofDigits ds
        if negative then -n else n
  return scale (ofDigits (w ++ f)) (e - f.length)

/-- A sign, then a decimal or one of the names of the special numbers in any case. -/
def readFloat? (s : String) : Option Float :=
  let (negative, body) := splitSign (trim s.toList)
  let name := String.ofList (body.map Char.toLower)
  let magnitude? :=
    if name = "inf" || name = "infinity" then some (1.0 / 0.0 : Float)
    else if name = "nan" then some (0.0 / 0.0 : Float)
    else readDecimal? digitValue? body
  magnitude?.map fun x => if negative then -x else x

/-- The floating point number written by a text, or what is wrong with the text. -/
def readFloatOr (s : String) : Except String Float :=
  match readFloat? s with
  | some x => .ok x
  | none => .error ("could not convert string to float: " ++ Text.quoted s)

end MergeGate.Decimal
