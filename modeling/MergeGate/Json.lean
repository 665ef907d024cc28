/-
Values as JSON text: maps with their keys in ascending order, and every character outside printable
ASCII escaped. `compact` leaves out all blanks; `pretty` puts every item on a line of its own.
-/
import MergeGate.Assoc
import MergeGate.Text.Quoted
import MergeGate.Value.Text

namespace MergeGate.Json

/-- A sixteen-bit unit as an escape. -/
def unit (n : Nat) : List Char := '\\' :: 'u' :: Text.hex 4 n

/-- One character of a JSON text; a character beyond sixteen bits is a pair of units. -/
def char (c : Char) : List Char :=
  let n := c.toNat
  if c = '"' then ['\\', '"']
  else if c = '\\' then ['\\', '\\']
  else if c = '\n' then ['\\', 'n']
  else if c = '\r' then ['\\', 'r']
  else if c = '\t' then ['\\', 't']
  else if n = 12 then ['\\', 'f']
  else if n = 8 then ['\\', 'b']
  else if 32 ≤ n && n < 127 then [c]
  else if n < 0x10000 then unit n
  else unit (0xd800 + (n - 0x10000) / 0x400) ++ unit (0xdc00 + (n - 0x10000) % 0x400)

/-- A text between quotes. -/
def text (s : String) : String := String.ofList ('"' :: s.toList.flatMap char ++ ['"'])

/-- A number with a fraction. -/
def float (x : Float) : String :=
  match Decimal.Shape.ofFloat x with
  | .nan => "NaN"
  | .infinite negative => if negative then "-Infinity" else "Infinity"
  | _ => Decimal.write x

/-- The key of a map entry: keys that are not texts are written as text. -/
def key : Value → String
  | .text s => s
  | .null => "null"
  | .bool b => if b then "true" else "false"
  | v => v.shown

/-- How items are set apart: nothing, or a line of its own for each. -/
structure Layout where
  /-- blanks per level of nesting, if items stand on lines of their own -/
  indent : Option Nat
  /-- between a key and its value -/
  colon : String

/-- Without blanks. -/
def Layout.compact : Layout := ⟨none, ":"⟩

/-- Two blanks per level. -/
def Layout.pretty : Layout := ⟨some 2, ": "⟩

/-- The line break before an item at the given depth. -/
def Layout.break (l : Layout) (depth : Nat) : String :=
  match l.indent with
  | none => ""
  | some n => String.ofList ('\n' :: List.replicate (n * depth) ' ')

/-- Items between brackets. -/
def Layout.wrap (l : Layout) (depth : Nat) (opening closing : String) (items : List String) :
    String :=
  if items.isEmpty then opening ++ closing
  else
    opening ++ l.break (depth + 1) ++ ("," ++ l.break (depth + 1)).intercalate items ++
      l.break depth ++ closing

mutual

/-- A value at a depth of nesting. -/
def write (l : Layout) (depth : Nat) : Value → String
  | .null => "null"
  | .bool b => if b then "true" else "false"
  | .int n => toString n
  | .float x => float x
  | .text s => text s
  | .list items => l.wrap depth "[" "]" (writeAll l (depth + 1) items)
  | .tuple items => l.wrap depth "[" "]" (writeAll l (depth + 1) items)
  | .map entries =>
    let fields := Assoc.sortByKey (writeEntries l (depth + 1) entries)
    l.wrap depth "\x7b" "\x7d" (fields.map fun f => text f.1 ++ l.colon ++ f.2)
  | v => text v.plain

/-- Items one after the other. -/
def writeAll (l : Layout) (depth : Nat) : List Value → List String
  | [] => []
  | v :: rest => write l depth v :: writeAll l depth rest

/-- Entries with their keys as texts. -/
def writeEntries (l : Layout) (depth : Nat) : List (Value × Value) → Assoc String
  | [] => []
  | (k, v) :: rest => (key k, write l depth v) :: writeEntries l depth rest

end

/-- JSON on one line, without blanks. -/
def compact (v : Value) : String := write .compact 0 v

/-- JSON on many lines. -/
def pretty (v : Value) : String := write .pretty 0 v

end MergeGate.Json
