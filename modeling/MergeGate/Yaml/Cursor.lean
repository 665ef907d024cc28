/-
A place in a YAML text: what is left of it, and the line and column reached. The end of the text
reads as the null character, which no text may contain.
-/
namespace MergeGate.Yaml

/-- Why a document cannot be read. All but the first arise only when the document is well formed and
one of its scalars does not mean what it says. -/
inductive Fault where
  | malformed
  | badInteger (base : Nat) (text : String)
  | longInteger (digits : Nat)
  | badFloat (text : String)
  | hugeFloat
  | badDate (message : String)
  | badBool (word : String)
  | emptyNumber
  | badTimestamp
  | badCodePoint (n : Nat)
  deriving DecidableEq, Repr

/-- The kind of the failure, as it is reported. -/
def Fault.kind : Fault → String
  | malformed => "ConfigurationError"
  | badInteger .. | longInteger _ | badFloat _ | badDate _ => "ValueError"
  | hugeFloat => "OverflowError"
  | badBool _ => "KeyError"
  | emptyNumber => "IndexError"
  | badTimestamp => "AttributeError"
  | badCodePoint n => if n < Nat.pow 2 31 then "ValueError" else "OverflowError"

/-- The end of the text. -/
def eof : Char := Char.ofNat 0

/-- A line break. -/
def isBreak (c : Char) : Bool :=
  c == '\n' || c == '\r' || c.toNat == 0x85 || c.toNat == 0x2028 || c.toNat == 0x2029

/-- A line break or the end. -/
def isBreakEnd (c : Char) : Bool := c == eof || isBreak c

/-- A blank, a line break or the end. -/
def isGap (c : Char) : Bool := c == ' ' || isBreakEnd c

/-- A blank, a tab, a line break or the end. -/
def isSpaceEnd (c : Char) : Bool := c == '\t' || isGap c

/-- A letter, a digit, a dash or an underscore: the characters of names. -/
def isWord (c : Char) : Bool := c.isAlphanum || c == '-' || c == '_'

/-- The value of a hexadecimal digit. -/
def hexDigit? (c : Char) : Option Nat :=
  if c.isDigit then some (c.toNat - 48)
  else if 'a' ≤ c && c ≤ 'f' then some (c.toNat - 87)
  else if 'A' ≤ c && c ≤ 'F' then some (c.toNat - 55)
  else none

/-- A place in a text. -/
structure Cursor where
  rest : List Char
  index : Nat := 0
  line : Nat := 0
  column : Nat := 0

namespace Cursor

/-- The character at the place. -/
def peek (c : Cursor) : Char := c.rest.headD eof

/-- The character `n` places further on. -/
def peekAt (c : Cursor) (n : Nat) : Char := (c.rest.drop n).headD eof

/-- One character further. -/
def step (c : Cursor) : Cursor :=
  match c.rest with
  | [] => c
  | ch :: rest =>
    let ends := isBreak ch && !(ch == '\r' && rest.head? == some '\n')
    { rest
      index := c.index + 1
      line := if ends then c.line + 1 else c.line
      column := if ends then 0 else if ch.toNat == 0xfeff then c.column else c.column + 1 }

/-- Some characters further. -/
def forward (c : Cursor) : Nat → Cursor
  | 0 => c
  | n + 1 => c.step.forward n

/-- The characters up to the first that fails `p`, and the place after them. -/
def takeWhile (c : Cursor) (p : Char → Bool) : List Char × Cursor :=
  let cs := c.rest.takeWhile p
  (cs, c.forward cs.length)

/-- Past all characters that satisfy `p`. -/
def skipWhile (c : Cursor) (p : Char → Bool) : Cursor := (c.takeWhile p).2

/-- Past all blanks. -/
def skipBlanks (c : Cursor) : Cursor := c.skipWhile (· == ' ')

/-- Past a comment, if there is one. -/
def skipComment (c : Cursor) : Cursor :=
  if c.peek == '#' then c.skipWhile fun ch => !isBreakEnd ch else c

/-- A line break, and the place after it. Only the two separators of Unicode stand for themselves;
all other line breaks are line feeds. -/
def lineBreak? (c : Cursor) : Option (Char × Cursor) :=
  let ch := c.peek
  if ch.toNat == 0x2028 || ch.toNat == 0x2029 then some (ch, c.step)
  else if ch == '\r' && c.peekAt 1 == '\n' then some ('\n', c.forward 2)
  else if isBreak ch then some ('\n', c.step)
  else none

/-- Does a document marker stand here: three dashes or three dots, and then a gap? -/
def atMarker (c : Cursor) : Bool :=
  let three := c.rest.take 3
  (three == ['-', '-', '-'] || three == ['.', '.', '.']) && isSpaceEnd (c.peekAt 3)

end Cursor

end MergeGate.Yaml
