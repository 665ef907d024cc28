/-
Words inside the messages of programs. A word that is spoken about stands between quotation marks, and
what cannot be printed is escaped. The name of a file is written so that a script could name the file
with it: as it is if nothing in it has a meaning there, and otherwise between apostrophes.
-/
import MergeGate.Shell.Bytes

namespace MergeGate.Shell.Quotation

/-- The bytes of one character, and whether they can be printed. -/
structure Cell where
  bytes : Bytes
  printed : Bool

/-- Can the character be printed? Controls, the separators of lines and paragraphs and what is no
character cannot. -/
def isPrinted (c : Char) : Bool :=
  let n := c.toNat
  !(n < 0x20 || (0x7f ≤ n && n < 0xa0) || n == 0x2028 || n == 0x2029 ||
    (0xfdd0 ≤ n && n ≤ 0xfdef) || 0xfffe ≤ n % 0x10000)

/-- The characters that bytes encode, the bytes of a character together; a byte of no character stands
alone. `skip` bytes belong to the character before. -/
def cellsFrom (skip : Nat) : Bytes → List Cell
  | [] => []
  | b :: rest => match skip with
    | skip + 1 => cellsFrom skip rest
    | 0 =>
      let alone : List Cell := ⟨[b], false⟩ :: cellsFrom 0 rest
      match Text.announced? b.toNat with
      | none => alone
      | some (n, value, low, high) =>
        match Text.continued value low high 0 n (Bytes.toRaw rest) with
        | .ok c => ⟨b :: rest.take n, isPrinted c⟩ :: cellsFrom n rest
        | .error _ => alone

/-- The characters that bytes encode. -/
def cells (bs : Bytes) : List Cell := cellsFrom 0 bs

/-- The letter that stands for a control after a backslash. -/
def controlLetter? (c : Char) : Option Char :=
  match c.toNat with
  | 7 => some 'a'
  | 8 => some 'b'
  | 9 => some 't'
  | 10 => some 'n'
  | 11 => some 'v'
  | 12 => some 'f'
  | 13 => some 'r'
  | _ => none

/-- A byte after a backslash: by its letter, or by its number. -/
def escaped (c : Char) : Bytes :=
  match controlLetter? c with
  | some l => ['\\', l]
  | none =>
    let ds := Nat.toDigits 8 c.toNat
    '\\' :: (List.replicate (3 - ds.length) '0' ++ ds)

/-- The mark behind a word that is spoken about. -/
def closingMark : Bytes := Bytes.ofText "’"

/-- A word that is spoken about, between quotation marks. -/
def marked (bs : Bytes) : Bytes :=
  let shown := (cells bs).flatMap fun x =>
    if !x.printed then x.bytes.flatMap escaped
    else if x.bytes == ['\\'] || x.bytes == closingMark then '\\' :: x.bytes
    else x.bytes
  Bytes.ofText "‘" ++ shown ++ closingMark

/-- Has a printed character at a place of a word a meaning in scripts? -/
def hasMeaning (alone first : Bool) (c : Char) : Bool :=
  if c == '\x7b' || c == '\x7d' then alone
  else if c == '#' || c == '~' then first
  else " !\"$&()*;<=>?[^`|'\\:".toList.contains c

/-- May a printed character stand between double quotes just as well? -/
def fitsDoubleQuotes (alone first : Bool) (c : Char) : Bool :=
  if c == '\x7b' || c == '\x7d' then alone
  else if c == '#' || c == '~' then first
  else !"!\"$&()*;<=>?[^`|\\".toList.contains c

/-- Characters between apostrophes; an apostrophe stands outside them, and so do escapes, which have
apostrophes of their own. -/
def between (inEscapes : Bool) : List Cell → Bytes × Bool
  | [] => ([], inEscapes)
  | x :: rest =>
    if !x.printed then
      let opening := if inEscapes then [] else ['\'', '$', '\'']
      let (more, last) := between true rest
      (opening ++ x.bytes.flatMap escaped ++ more, last)
    else
      let closing := if inEscapes then ['\'', '\''] else []
      let (more, last) := between false rest
      if x.bytes == ['\''] then (['\'', '\\', '\'', '\''] ++ more, last)
      else (closing ++ x.bytes ++ more, last)

/-- The name of a file. -/
def named (bs : Bytes) : Bytes :=
  let xs := cells bs
  let alone := bs.length == 1
  let any (p : Bool → Bool → Char → Bool) : Bool := (xs.zipIdx.any fun (x, n) =>
    match x.bytes with
    | [c] => p alone (n == 0) c
    | _ => false)
  let plain := !xs.isEmpty && xs.all (·.printed) && !any hasMeaning
  if plain then bs
  else if !bs.contains '\'' then ['\''] ++ (between false xs).1 ++ ['\'']
  else if xs.all (·.printed) && !any (fun a f c => !fitsDoubleQuotes a f c) then
    ['"'] ++ bs ++ ['"']
  else
    -- with an apostrophe inside, the escapes are closed in front if they were open at the end
    let (_, last) := between false xs
    ['\''] ++ (between last xs).1 ++ ['\'']

end MergeGate.Shell.Quotation
