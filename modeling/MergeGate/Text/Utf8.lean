/-
Text as bytes. `encode` writes every character in one to four bytes; `decode` reads them back, and
says at which byte and why bytes are no text.
-/
namespace MergeGate.Text

/-- The bytes of one character. -/
def encodeChar (c : Char) : List UInt8 :=
  let n := c.toNat
  let tail (k : Nat) : UInt8 := UInt8.ofNat (0x80 + n / Nat.pow 64 k % 64)
  if n < 0x80 then [UInt8.ofNat n]
  else if n < 0x800 then [UInt8.ofNat (0xc0 + n / 64), tail 0]
  else if n < 0x10000 then [UInt8.ofNat (0xe0 + n / 4096), tail 1, tail 0]
  else [UInt8.ofNat (0xf0 + n / 262144), tail 2, tail 1, tail 0]

/-- The bytes of a text. -/
def encode (cs : List Char) : List UInt8 := cs.flatMap encodeChar

/-- Why bytes are no text. -/
inductive Garble where
  /-- no character begins with the byte -/
  | start
  /-- the character is not continued as it must be -/
  | continuation
  /-- the bytes end inside a character -/
  | ended
  deriving DecidableEq, Repr

/-- What stands where no text can be read: the number of bytes before it, the first byte, how many
bytes are at fault, and why. -/
structure Undecodable where
  position : Nat
  byte : UInt8
  length : Nat
  reason : Garble
  deriving DecidableEq, Repr

/-- The reason in words. -/
def Garble.words : Garble → String
  | start => "invalid start byte"
  | continuation => "invalid continuation byte"
  | ended => "unexpected end of data"

/-- What a first byte announces: how many bytes follow, the value it brings, and the limits of the
byte after it. -/
def announced? (b : Nat) : Option (Nat × Nat × Nat × Nat) :=
  if b < 0x80 then some (0, b, 0, 0)
  else if 0xc2 ≤ b && b ≤ 0xdf then some (1, b - 0xc0, 0x80, 0xbf)
  else if b = 0xe0 then some (2, 0, 0xa0, 0xbf)
  else if b = 0xed then some (2, 0xd, 0x80, 0x9f)
  else if 0xe1 ≤ b && b ≤ 0xef then some (2, b - 0xe0, 0x80, 0xbf)
  else if b = 0xf0 then some (3, 0, 0x90, 0xbf)
  else if b = 0xf4 then some (3, 4, 0x80, 0x8f)
  else if 0xf1 ≤ b && b ≤ 0xf3 then some (3, b - 0xf0, 0x80, 0xbf)
  else none

/-- The bytes that continue a character: how many were taken before a fault, or the character. -/
def continued (value low high : Nat) (taken : Nat) : Nat → List UInt8 → Except (Nat × Garble) Char
  | 0, _ => .ok (Char.ofNat value)
  | _ + 1, [] => .error (taken, .ended)
  | n + 1, b :: rest =>
    if low ≤ b.toNat && b.toNat ≤ high then
      continued (value * 64 + (b.toNat - 0x80)) 0x80 0xbf (taken + 1) n rest
    else .error (taken, .continuation)

/-- The text that bytes encode, from the given position on; `skip` bytes have been read already. -/
def decodeFrom (position skip : Nat) (acc : List Char) :
    List UInt8 → Except Undecodable (List Char)
  | [] => .ok acc.reverse
  | b :: rest => match skip with
    | skip + 1 => decodeFrom (position + 1) skip acc rest
    | 0 => match announced? b.toNat with
      | none => .error ⟨position, b, 1, .start⟩
      | some (n, value, low, high) => match continued value low high 0 n rest with
        | .ok c => decodeFrom (position + 1) n (c :: acc) rest
        | .error (taken, reason) => .error ⟨position, b, taken + 1, reason⟩

/-- The text that bytes encode. -/
def decode (bs : List UInt8) : Except Undecodable (List Char) := decodeFrom 0 0 [] bs

/-- The text that bytes encode, with a mark in place of every run of bytes that is no text. As much
fuel as bytes is enough. -/
def decodeMarked (fuel : Nat) (bs : List UInt8) : List Char :=
  match fuel with
  | 0 => []
  | fuel + 1 => match decode bs with
    | .ok cs => cs
    | .error u =>
      let before := (decode (bs.take u.position)).toOption.getD []
      before ++ Char.ofNat 0xfffd :: decodeMarked fuel (bs.drop (u.position + u.length))

/-- The text that bytes encode, with a mark in place of what is no text. -/
def decodeAll (bs : List UInt8) : List Char := decodeMarked (bs.length + 1) bs

/-- The kind of the complaint about bytes that are no text. -/
def Undecodable.kind : String := "UnicodeDecodeError"

/-- The complaint about bytes that are no text. -/
def Undecodable.message (u : Undecodable) : String :=
  let hex := String.ofList (Nat.toDigits 16 u.byte.toNat)
  let hex := if hex.length < 2 then "0" ++ hex else hex
  let what := if u.length = 1 then "byte 0x" ++ hex ++ " in position " ++ toString u.position
    else "bytes in position " ++ toString u.position ++ "-" ++ toString (u.position + u.length - 1)
  "'utf-8' codec can't decode " ++ what ++ ": " ++ u.reason.words

end MergeGate.Text
