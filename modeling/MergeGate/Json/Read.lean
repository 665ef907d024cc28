/-
JSON texts as values. Maps keep the order of their entries; a key that comes again keeps its first
place and its last value. A number with a point or an exponent is a float, any other an integer.
-/
import MergeGate.Decimal.Read
import MergeGate.Value.Basic

namespace MergeGate.Json

/-- May the character stand between tokens? -/
def isGap (c : Char) : Bool := c == ' ' || c == '\n' || c == '\t' || c == '\r'

/-- The text from the next token on. -/
def skipGap (cs : List Char) : List Char := cs.dropWhile isGap

/-- The value of a hexadecimal digit. -/
def hexDigit? (c : Char) : Option Nat :=
  if c.isDigit then some (c.toNat - 48)
  else if 'a' ≤ c && c ≤ 'f' then some (c.toNat - 87)
  else if 'A' ≤ c && c ≤ 'F' then some (c.toNat - 55)
  else none

/-- The number that hexadecimal digits write. -/
def hexNumber? (ds : List Char) : Option Nat :=
  ds.foldl (fun n? d => do return (← n?) * 16 + (← hexDigit? d)) (some 0)

/-- The character that an escape of one letter stands for. -/
def escaped? (c : Char) : Option Char :=
  if c = 'n' then some '\n'
  else if c = 't' then some '\t'
  else if c = 'r' then some '\r'
  else if c = 'b' then some (Char.ofNat 8)
  else if c = 'f' then some (Char.ofNat 12)
  else if c = '"' || c = '\\' || c = '/' then some c
  else none

/-- Is it the first half of a pair of units? -/
def isLead (n : Nat) : Bool := decide (0xd800 ≤ n) && decide (n < 0xdc00)

/-- The character of a pair of units. -/
def paired (lead trail : Nat) : Char :=
  Char.ofNat (0x10000 + (lead - 0xd800) * 0x400 + (trail - 0xdc00))

/-- The characters up to the closing quote, `acc` being those read so far, reversed. -/
def readText (acc : List Char) : List Char → Option (String × List Char)
  | '"' :: rest => some (String.ofList acc.reverse, rest)
  | '\\' :: 'u' :: a :: b :: c :: d :: '\\' :: 'u' :: e :: f :: g :: h :: rest => do
    let n ← hexNumber? [a, b, c, d]
    let m ← hexNumber? [e, f, g, h]
    if isLead n then readText (paired n m :: acc) rest
    else if isLead m then readText (Char.ofNat n :: acc) ('\\' :: 'u' :: e :: f :: g :: h :: rest)
    else readText (Char.ofNat m :: Char.ofNat n :: acc) rest
  | '\\' :: 'u' :: a :: b :: c :: d :: rest => do
    let n ← hexNumber? [a, b, c, d]
    readText (Char.ofNat n :: acc) rest
  | '\\' :: e :: rest => do
    let c ← escaped? e
    readText (c :: acc) rest
  | c :: rest => readText (c :: acc) rest
  | [] => none
termination_by cs => cs.length

/-- May the character stand in a number? -/
def isNumeric (c : Char) : Bool :=
  c.isDigit || c == '-' || c == '+' || c == '.' || c == 'e' || c == 'E'

/-- A number. -/
def readNumber (cs : List Char) : Option (Value × List Char) :=
  let word := cs.takeWhile isNumeric
  let rest := cs.dropWhile isNumeric
  let s := String.ofList word
  if word.any fun c => c == '.' || c == 'e' || c == 'E' then
    (Decimal.readFloat? s).map fun x => (.float x, rest)
  else (Decimal.readInt? s).map fun n => (.int n, rest)

mutual

/-- A value at the start of a text, nested no deeper than the fuel allows. -/
def readValue (fuel : Nat) (cs : List Char) : Option (Value × List Char) :=
  match fuel with
  | 0 => none
  | fuel + 1 =>
    match skipGap cs with
    | 'n' :: 'u' :: 'l' :: 'l' :: rest => some (.null, rest)
    | 't' :: 'r' :: 'u' :: 'e' :: rest => some (.bool true, rest)
    | 'f' :: 'a' :: 'l' :: 's' :: 'e' :: rest => some (.bool false, rest)
    | '"' :: rest => (readText [] rest).map fun p => (.text p.1, p.2)
    | '[' :: rest =>
      match skipGap rest with
      | ']' :: rest => some (.list [], rest)
      | rest => readItems fuel [] rest
    | '\x7b' :: rest =>
      match skipGap rest with
      | '\x7d' :: rest => some (.map [], rest)
      | rest => readEntries fuel [] rest
    | rest => readNumber rest

/-- The items of a list up to its bracket, `acc` being those read so far, reversed. -/
def readItems (fuel : Nat) (acc : List Value) (cs : List Char) : Option (Value × List Char) :=
  match fuel with
  | 0 => none
  | fuel + 1 => do
    let (v, rest) ← readValue fuel cs
    match skipGap rest with
    | ',' :: rest => readItems fuel (v :: acc) rest
    | ']' :: rest => some (.list (v :: acc).reverse, rest)
    | _ => none

/-- The entries of a map up to its brace, `acc` being those read so far, reversed. -/
def readEntries (fuel : Nat) (acc : List (Value × Value)) (cs : List Char) :
    Option (Value × List Char) :=
  match fuel with
  | 0 => none
  | fuel + 1 =>
    match skipGap cs with
    | '"' :: rest => do
      let (k, rest) ← readText [] rest
      match skipGap rest with
      | ':' :: rest => do
        let (v, rest) ← readValue fuel rest
        match skipGap rest with
        | ',' :: rest => readEntries fuel ((.text k, v) :: acc) rest
        | '\x7d' :: rest => some (.map (Value.joinEntries ((.text k, v) :: acc).reverse), rest)
        | _ => none
      | _ => none
    | _ => none

end

/-- The value that a JSON text writes. Every level of nesting and every item takes a character, so
the length of the text is fuel enough. -/
def read (s : String) : Option Value :=
  let cs := s.toList
  match readValue (cs.length + 1) cs with
  | some (v, rest) => if (skipGap rest).isEmpty then some v else none
  | none => none

end MergeGate.Json
