/-
The shortest decimal of a binary floating point number. A finite number is `m * 2 ^ q`; every real
in a small interval around it rounds back to it, ends included when `m` is even. For one digit,
two digits and so on, the two neighbours of the number on the decimal grid are tried in exact
integer arithmetic; the first grid with a hit wins, and of two hits the nearer one.
-/
namespace MergeGate.Decimal

/-- A finite positive binary number `m * 2 ^ q`, with the interval that rounds to it. -/
structure Binary where
  /-- the significand -/
  m : Nat
  /-- the exponent of two -/
  q : Int
  /-- is the distance to the next smaller number half of that to the next larger one? -/
  narrow : Bool

/-- What the 64 bits of a number say. -/
inductive Shape where
  | nan
  | infinite (negative : Bool)
  | zero (negative : Bool)
  | finite (negative : Bool) (b : Binary)

/-- Decode a number's bits: sign, eleven exponent bits, fifty-two fraction bits. -/
def Shape.ofBits (bits : Nat) : Shape :=
  let negative := decide (Nat.pow 2 63 ≤ bits)
  let e : Nat := bits / Nat.pow 2 52 % Nat.pow 2 11
  let f : Nat := bits % Nat.pow 2 52
  if e = 2047 then if f = 0 then .infinite negative else .nan
  else if e = 0 then
    if f = 0 then .zero negative else .finite negative ⟨f, -1074, false⟩
  else .finite negative ⟨Nat.pow 2 52 + f, (e : Int) - 1075, f = 0 && 1 < e⟩

/-- Decode a number. -/
def Shape.ofFloat (x : Float) : Shape := Shape.ofBits x.toBits.toNat

/-- `a * b ^ e` as a fraction of natural numbers. -/
def scaled (a b : Nat) (e : Int) : Nat × Nat :=
  if 0 ≤ e then (a * b.pow e.toNat, 1) else (a, b.pow (-e).toNat)

/-- Decimal digits with the power of ten of the last one: `digits * 10 ^ exponent`. -/
structure Digits where
  digits : Nat
  exponent : Int

/-- Does `d * 10 ^ k` round to the binary number? -/
def Binary.hit (b : Binary) (d : Nat) (k : Int) : Bool :=
  -- four times the number and both ends, all over the same power of two
  let low := 4 * b.m - (if b.narrow then 1 else 2)
  let high := 4 * b.m + 2
  let (dn, dd) := scaled (4 * d) 10 k
  let (bn, bd) := scaled 1 2 b.q
  -- compare dn / dd with low * bn / bd and high * bn / bd
  let x := dn * bd
  let l := low * bn * dd
  let h := high * bn * dd
  if b.m % 2 = 0 then decide (l ≤ x) && decide (x ≤ h) else decide (l < x) && decide (x < h)

/-- The whole part of the number over `10 ^ k`, with the remainder over the divisor. -/
def Binary.over (b : Binary) (k : Int) : Nat × Nat × Nat :=
  let (n, d) := scaled b.m 2 b.q
  let (tn, td) := scaled 1 10 k
  let num := n * td
  let den := d * tn
  (num / den, num % den, den)

/-- The nearest hit among the two neighbours on the grid of `10 ^ k`. -/
def Binary.onGrid? (b : Binary) (k : Int) : Option Nat :=
  let (lo, r, den) := b.over k
  let below := decide (0 < lo) && b.hit lo k
  let above := b.hit (lo + 1) k
  match below, above with
  | true, true =>
    if 2 * r < den then some lo
    else if den < 2 * r then some (lo + 1)
    else if lo % 2 = 0 then some lo else some (lo + 1)
  | true, false => some lo
  | false, true => some (lo + 1)
  | false, false => none

/-- Number of decimal digits. -/
def width (n : Nat) : Nat := (Nat.toDigits 10 n).length

/-- The least `k` with the number below `10 ^ k`. -/
def Binary.magnitude (b : Binary) : Int :=
  if 0 ≤ b.q then width (b.m * Nat.pow 2 b.q.toNat)
  else
    let d := Nat.pow 2 (-b.q).toNat
    if d ≤ b.m then width (b.m / d)
    else
      -- 0 < m / d < 1: the number of leading zeros after the point
      let t := d / b.m
      let w := width t
      -- 10 ^ (w-1) ≤ d / m, so m / d ≤ 10 ^ (1-w)
      if b.m * Nat.pow 10 (w - 1) = d then 2 - (w : Int) else 1 - (w : Int)

/-- Try ever finer grids, from `n` digits on. -/
def Binary.search (b : Binary) (magnitude : Int) : Nat → Nat → Digits
  | 0, n =>
    -- seventeen digits always suffice
    let k := magnitude - n
    ⟨(b.over k).1, k⟩
  | fuel + 1, n =>
    let k := magnitude - n
    match b.onGrid? k with
    | some d => ⟨d, k⟩
    | none => b.search magnitude fuel (n + 1)

/-- The shortest decimal that rounds to the number, and the nearest among those. -/
def Binary.shortest (b : Binary) : Digits := b.search b.magnitude 17 1

/-- Drop trailing zeros of the digits. -/
def Digits.trim (d : Digits) : Nat → Digits
  | 0 => d
  | fuel + 1 =>
    if d.digits ≠ 0 ∧ d.digits % 10 = 0 then Digits.trim ⟨d.digits / 10, d.exponent + 1⟩ fuel else d

/-- How numbers are written: positionally while the leading digit's power of ten lies in
`[least, bound)`, else with an exponent of at least two digits and an explicit sign. -/
structure Style where
  least : Int
  bound : Int

/-- Values are written positionally from `10 ^ -4` up to, but not including, `10 ^ 16`. -/
def Style.plain : Style := ⟨-4, 16⟩

/-- The digits with a point after the first `n` of them, padded with zeros as needed. -/
def placePoint (ds : List Char) (n : Int) : List Char :=
  if n ≤ 0 then '0' :: '.' :: (List.replicate (-n).toNat '0' ++ ds)
  else
    let n := n.toNat
    if ds.length ≤ n then ds ++ List.replicate (n - ds.length) '0' ++ ['.', '0']
    else ds.take n ++ '.' :: ds.drop n

/-- An exponent with its sign and at least two digits. -/
def exponentText (e : Int) : List Char :=
  let ds := Nat.toDigits 10 e.natAbs
  (if e < 0 then '-' else '+') :: (if ds.length < 2 then '0' :: ds else ds)

/-- Decimal digits in the given style. -/
def Digits.write (style : Style) (d : Digits) : List Char :=
  let d := d.trim 400
  let ds := Nat.toDigits 10 d.digits
  let lead : Int := d.exponent + ds.length - 1
  if style.least ≤ lead ∧ lead < style.bound then placePoint ds (lead + 1)
  else
    let mantissa := match ds with
      | [] => []
      | [c] => [c]
      | c :: cs => c :: '.' :: cs
    mantissa ++ 'e' :: exponentText lead

/-- The text of a floating point number. -/
def write (x : Float) : String :=
  match Shape.ofFloat x with
  | .nan => "nan"
  | .infinite negative => if negative then "-inf" else "inf"
  | .zero negative => if negative then "-0.0" else "0.0"
  | .finite negative b =>
    let t := b.shortest.write Style.plain
    String.ofList (if negative then '-' :: t else t)

end MergeGate.Decimal
