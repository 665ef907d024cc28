/-
Bytes as scripts see them. A script and all it reads and writes are bytes; each byte is held as the
character of its number, so that patterns and messages can be written as text.
-/
import MergeGate.Text.Utf8

namespace MergeGate.Shell

/-- Bytes, each as the character of its number. -/
abbrev Bytes := List Char

namespace Bytes

/-- The bytes of a text. -/
def ofText (s : String) : Bytes :=
  (Text.encode s.toList).map fun b => Char.ofNat b.toNat

/-- Bytes from their numbers. -/
def ofRaw (bs : List UInt8) : Bytes := bs.map fun b => Char.ofNat b.toNat

/-- The numbers of bytes. -/
def toRaw (bs : Bytes) : List UInt8 := bs.map fun c => UInt8.ofNat c.toNat

/-- Bytes as a text of as many characters. -/
def literal (bs : Bytes) : String := String.ofList bs

/-- The bytes of a text in which every character is one byte. -/
def ofLiteral (s : String) : Bytes := s.toList

/-- The text that bytes encode; what is no text is left out. -/
def toText (bs : Bytes) : String :=
  match Text.decode (toRaw bs) with
  | .ok cs => String.ofList cs
  | .error _ => String.ofList (bs.filter fun c => c.toNat < 128)

/-- A number as decimal digits. -/
def ofInt (n : Int) : Bytes := (toString n).toList

/-- A number as decimal digits. -/
def ofNat (n : Nat) : Bytes := (toString n).toList

end Bytes

/-- May a name begin with the byte? -/
def isNameStart (c : Char) : Bool :=
  ('a' ≤ c && c ≤ 'z') || ('A' ≤ c && c ≤ 'Z') || c == '_'

/-- May a name go on with the byte? -/
def isNameRest (c : Char) : Bool := isNameStart c || ('0' ≤ c && c ≤ '9')

/-- Is it a name? -/
def isName : Bytes → Bool
  | [] => false
  | c :: rest => isNameStart c && rest.all isNameRest

/-- Is it one of the parameters with a sign for a name? -/
def isSpecialParameter (c : Char) : Bool :=
  c == '#' || c == '?' || c == '$' || c == '!' || c == '-' || c == '*' || c == '@' ||
    ('0' ≤ c && c ≤ '9')

/-- Is it a decimal digit? -/
def isDigitByte (c : Char) : Bool := '0' ≤ c && c ≤ '9'

/-- The number that decimal digits write. -/
def natOfDigits (ds : Bytes) : Nat := ds.foldl (fun n d => n * 10 + (d.toNat - 48)) 0

/-- Cut at the first byte that satisfies `p`: what is before it, and what is from it on. -/
def cutBefore (p : Char → Bool) (bs : Bytes) : Bytes × Bytes :=
  (bs.takeWhile fun c => !p c, bs.dropWhile fun c => !p c)

/-- The parts of bytes between separators. -/
def splitBytes (sep : Char) (bs : Bytes) : List Bytes :=
  match bs with
  | [] => [[]]
  | c :: rest =>
    if c == sep then [] :: splitBytes sep rest
    else match splitBytes sep rest with
      | [] => [[c]]
      | first :: more => (c :: first) :: more

end MergeGate.Shell
