/-
What a plain scalar is, or one with the bare tag: its text decides. The patterns are tried in a fixed order, those whose first
character fits; a text that fits none is a text.
-/
import MergeGate.Text.Blank

namespace MergeGate.Yaml

/-- What a scalar or collection is. -/
inductive Tag where
  | null
  | bool
  | int
  | float
  | timestamp
  | text
  | binary
  | sequence
  | mapping
  | set
  /-- a sequence of mappings with one entry each, taken as pairs -/
  | pairs
  /-- the key that merges another mapping in -/
  | merge
  /-- the key of a mapping's default value -/
  | value
  /-- any other tag -/
  | foreign (name : String)
  deriving DecidableEq, Repr

/-- The beginning of the standard tags. -/
def standardTags : String := "tag:yaml.org,2002:"

/-- The tag with the given full name. -/
def Tag.ofName (s : String) : Tag :=
  match Text.afterStart? standardTags s with
  | some "null" => .null
  | some "bool" => .bool
  | some "int" => .int
  | some "float" => .float
  | some "timestamp" => .timestamp
  | some "str" => .text
  | some "binary" => .binary
  | some "seq" => .sequence
  | some "map" => .mapping
  | some "set" => .set
  | some "omap" | some "pairs" => .pairs
  | some "merge" => .merge
  | some "value" => .value
  | _ => .foreign s

namespace Plain

/-- The words for truth values. -/
def boolWords : List String :=
  ["yes", "Yes", "YES", "no", "No", "NO", "true", "True", "TRUE", "false", "False", "FALSE",
    "on", "On", "ON", "off", "Off", "OFF"]

/-- The words for nothing. -/
def nullWords : List String := ["", "~", "null", "Null", "NULL"]

/-- A text without its sign. -/
def unsigned : List Char → List Char
  | '+' :: rest => rest
  | '-' :: rest => rest
  | cs => cs

/-- A digit or an underscore. -/
def isDigitMark (c : Char) : Bool := c.isDigit || c == '_'

/-- A number between 0 and 59 with one or two digits. -/
def isSixty : List Char → Bool
  | [a] => a.isDigit
  | [a, b] => '0' ≤ a && a ≤ '5' && b.isDigit
  | _ => false

/-- Cut a text at every occurrence of a character. -/
def cut (mark : Char) : List Char → List (List Char)
  | [] => [[]]
  | c :: rest =>
    if c = mark then [] :: cut mark rest
    else match cut mark rest with
      | [] => [[c]]
      | first :: more => (c :: first) :: more

/-- Not empty, and all characters satisfy `p`. -/
def someAll (p : Char → Bool) (cs : List Char) : Bool := !cs.isEmpty && cs.all p

/-- A digit, then digits and underscores; `first` is what the first character must be. -/
def isNumeral (first : Char → Bool) : List Char → Bool
  | [] => false
  | c :: rest => first c && rest.all isDigitMark

/-- A digit other than zero. -/
def isPositive (c : Char) : Bool := '1' ≤ c && c ≤ '9'

/-- Is it an integer: binary, octal, decimal, hexadecimal or in base sixty? -/
def isInt (cs : List Char) : Bool :=
  let body := unsigned cs
  let based := match body with
    | '0' :: 'b' :: rest => someAll (fun c => c == '0' || c == '1' || c == '_') rest
    | '0' :: 'x' :: rest =>
      someAll (fun c => isDigitMark c || ('a' ≤ c && c ≤ 'f') || ('A' ≤ c && c ≤ 'F')) rest
    | ['0'] => true
    | '0' :: rest => rest.all fun c => ('0' ≤ c && c ≤ '7') || c == '_'
    | _ => false
  based || match cut ':' body with
    | first :: rest => isNumeral isPositive first && rest.all isSixty
    | [] => false

/-- The exponent of a float, if any: a letter, a sign and digits. -/
def isExponent : List Char → Bool
  | [] => true
  | e :: sign :: rest =>
    (e == 'e' || e == 'E') && (sign == '+' || sign == '-') && someAll Char.isDigit rest
  | _ => false

/-- Digits and underscores, then perhaps an exponent. -/
def isFraction (cs : List Char) : Bool := isExponent (cs.dropWhile isDigitMark)

/-- The words for infinity and for not-a-number, after the point. -/
def isInfinity (cs : List Char) : Bool :=
  cs == ['i', 'n', 'f'] || cs == ['I', 'n', 'f'] || cs == ['I', 'N', 'F']

/-- The words for not-a-number, after the point. -/
def isNan (cs : List Char) : Bool :=
  cs == ['n', 'a', 'n'] || cs == ['N', 'a', 'N'] || cs == ['N', 'A', 'N']

/-- Is it a floating point number? There is always a point in it. -/
def isFloat (cs : List Char) : Bool :=
  let body := unsigned cs
  let signed := match body.takeWhile (· != '.'), body.dropWhile (· != '.') with
    | [], '.' :: rest => isInfinity rest
    | whole, '.' :: rest => match cut ':' whole with
      | [one] => isNumeral Char.isDigit one && isFraction rest
      | first :: more =>
        isNumeral Char.isDigit first && more.all isSixty && rest.all isDigitMark
      | [] => false
    | _, _ => false
  signed || match cs with
    | '.' :: rest => isNan rest || (match rest with
      | c :: more => c.isDigit && isFraction more
      | [] => false)
    | _ => false

end Plain

/-- The parts of a date, perhaps with a time and an offset. -/
structure Timestamp where
  year : List Char
  month : List Char
  day : List Char
  /-- hour, minute, second and fraction -/
  time : Option (List Char × List Char × List Char × List Char) := none
  /-- `Z`, or a sign with hours and minutes -/
  zone : Option (Option (Bool × List Char × List Char)) := none

namespace Timestamp

/-- One or two digits. -/
def oneOrTwo : List Char → Option (List Char × List Char)
  | a :: b :: rest =>
    if a.isDigit then if b.isDigit then some ([a, b], rest) else some ([a], b :: rest) else none
  | [a] => if a.isDigit then some ([a], []) else none
  | [] => none

/-- Exactly two digits. -/
def two : List Char → Option (List Char × List Char)
  | a :: b :: rest => if a.isDigit && b.isDigit then some ([a, b], rest) else none
  | _ => none

/-- The given character. -/
def mark (c : Char) : List Char → Option (List Char)
  | d :: rest => if c = d then some rest else none
  | [] => none

/-- A blank or a tab. -/
def isBlankTab (c : Char) : Bool := c == ' ' || c == '\t'

/-- The end of a timestamp: nothing, `Z` or an offset, after blanks. -/
def readZone (cs : List Char) : Option (Option (Option (Bool × List Char × List Char))) :=
  if cs.isEmpty then some none
  else match cs.dropWhile isBlankTab with
    | ['Z'] => some (some none)
    | sign :: rest =>
      if sign = '+' || sign = '-' then do
        let (hours, rest) ← oneOrTwo rest
        let minutes ← match rest with
          | [] => some []
          | ':' :: rest => do
            let (m, rest) ← two rest
            if rest.isEmpty then some m else none
          | _ => none
        some (some (some (sign == '-', hours, minutes)))
      else none
    | [] => none

/-- A time of day and what follows it. -/
def readTime (date : Timestamp) (cs : List Char) : Option Timestamp := do
  let rest ← match cs with
    | 'T' :: rest => some rest
    | 't' :: rest => some rest
    | c :: rest => if isBlankTab c then some (rest.dropWhile isBlankTab) else none
    | [] => none
  let (hour, rest) ← oneOrTwo rest
  let rest ← mark ':' rest
  let (minute, rest) ← two rest
  let rest ← mark ':' rest
  let (second, rest) ← two rest
  let (fraction, rest) := match rest with
    | '.' :: rest => (rest.takeWhile Char.isDigit, rest.dropWhile Char.isDigit)
    | rest => ([], rest)
  let zone ← readZone rest
  return { date with time := some (hour, minute, second, fraction), zone }

/-- Read a timestamp. -/
def read? (cs : List Char) : Option Timestamp := do
  let (y₁, rest) ← two cs
  let (y₂, rest) ← two rest
  let rest ← mark '-' rest
  let (month, rest) ← oneOrTwo rest
  let rest ← mark '-' rest
  let (day, rest) ← oneOrTwo rest
  let date : Timestamp := { year := y₁ ++ y₂, month, day }
  if rest.isEmpty then some date else readTime date rest

/-- Is a plain scalar a timestamp? A date alone needs two digits for month and day. -/
def isPlain (cs : List Char) : Bool :=
  match read? cs with
  | none => false
  | some t => t.time.isSome || (t.month.length == 2 && t.day.length == 2)

end Timestamp

/-- A text without one line feed at its end. -/
def dropLineFeed (cs : List Char) : List Char :=
  if cs.getLast? = some '\n' then cs.dropLast else cs

/-- What a scalar is by its text, in which one line feed at the end does not count. -/
def resolve (s : String) : Tag :=
  let cs := dropLineFeed s.toList
  let word := String.ofList cs
  if s = "\n" then .text
  else if Plain.boolWords.contains word then .bool
  else if Plain.isFloat cs then .float
  else if Plain.isInt cs then .int
  else if word = "<<" then .merge
  else if Plain.nullWords.contains word then .null
  else if Timestamp.isPlain cs then .timestamp
  else if word = "=" then .value
  else if word = "!" || word = "&" || word = "*" then .foreign (standardTags ++ "yaml")
  else .text

end MergeGate.Yaml
