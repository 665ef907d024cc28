/-
Whole numbers in scripts: 64 bits with a sign, read as decimal, octal or hexadecimal.
-/
import MergeGate.Shell.Bytes

namespace MergeGate.Shell.Number

/-- The greatest number. -/
def greatest : Int := 0x7fffffffffffffff

/-- The least number. -/
def least : Int := -0x8000000000000000

/-- A number brought into 64 bits with a sign, higher bits dropped. -/
def wrap (n : Int) : Int := Int.bmod n (Nat.pow 2 64)

/-- A number brought into 64 bits without a sign. -/
def unsigned (n : Int) : Nat := (n % 0x10000000000000000).toNat

/-- The value of a digit, letters going on after nine. -/
def digit? (base : Nat) (c : Char) : Option Nat :=
  let n := c.toNat
  let v := if isDigitByte c then n - 48
    else if 'a' ≤ c && c ≤ 'z' then n - 87
    else if 'A' ≤ c && c ≤ 'Z' then n - 55
    else 99
  if v < base then some v else none

/-- Is the byte white space? -/
def isSpaceByte (c : Char) : Bool := c == ' ' || (9 ≤ c.toNat && c.toNat ≤ 13)

/-- Digits from the start of bytes: their value, how many there are, and what follows. -/
def digits (base : Nat) (acc count : Nat) : Bytes → Nat × Nat × Bytes
  | [] => (acc, count, [])
  | c :: rest => match digit? base c with
    | some d => digits base (acc * base + d) (count + 1) rest
    | none => (acc, count, c :: rest)

/-- A number without sign at the start of bytes; base zero means that the number shows its base. -/
def magnitude (base : Nat) (bs : Bytes) : Nat × Nat × Bytes :=
  let hexadecimal (rest : Bytes) : Option (Nat × Nat × Bytes) :=
    match digits 16 0 0 rest with
    | (_, 0, _) => none
    | r => some r
  match base, bs with
  | 0, '0' :: 'x' :: rest | 0, '0' :: 'X' :: rest | 16, '0' :: 'x' :: rest | 16, '0' :: 'X' :: rest =>
    (hexadecimal rest).getD (0, 1, bs.drop 1)
  | 0, '0' :: _ => digits 8 0 0 bs
  | 0, bs => digits 10 0 0 bs
  | base, bs => digits base 0 0 bs

/-- A number read from the start of bytes. -/
structure Found where
  value : Int
  /-- were there digits? -/
  any : Bool
  rest : Bytes

/-- A number with white space and a sign before it. -/
def read (base : Nat) (bs : Bytes) : Found :=
  let body := bs.dropWhile isSpaceByte
  let (negative, body) := match body with
    | '-' :: rest => (true, rest)
    | '+' :: rest => (false, rest)
    | rest => (false, rest)
  let (n, count, rest) := magnitude base body
  if count = 0 then ⟨0, false, bs⟩ else ⟨if negative then -(n : Int) else n, true, rest⟩

/-- The number that bytes write, white space allowed on both sides. In base ten there must be a
number; with base zero nothing at all is zero. -/
def ofBytes? (base : Nat) (bs : Bytes) : Option Int :=
  let r := read base bs
  if r.value < least || greatest < r.value then none
  else if base != 0 && !r.any then none
  else if r.rest.all isSpaceByte then some r.value
  else none

/-- The number from zero up to the greatest of 32 bits that bytes write. -/
def count? (bs : Bytes) : Option Nat :=
  (ofBytes? 10 bs).bind fun n => if 0 ≤ n && n < 0x80000000 then some n.toNat else none

end MergeGate.Shell.Number
