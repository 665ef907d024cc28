/-
Formatted output. A format is text with directives, each of which takes an argument; it is used again
as long as arguments are left. A directive has flags, a width, a precision and a conversion. Numbers
are 64 bits wide, and floating point numbers are written from their exact values.
-/
import MergeGate.Decimal.Fixed
import MergeGate.Decimal.Read
import MergeGate.Shell.Number

namespace MergeGate.Shell.Format

/-- The flags, width and precision of a directive. -/
structure Layout where
  leftward : Bool := false
  plus : Bool := false
  blank : Bool := false
  zeros : Bool := false
  other : Bool := false
  width : Nat := 0
  precision : Option Nat := none

/-- Fill up to the width: text with what must stand before the zeros. -/
def Layout.fill (l : Layout) (zeros : Bool) (sign body : Bytes) : Bytes :=
  let missing := l.width - (sign.length + body.length)
  if l.leftward then sign ++ body ++ List.replicate missing ' '
  else if zeros then sign ++ List.replicate missing '0' ++ body
  else List.replicate missing ' ' ++ sign ++ body

/-- A text. -/
def Layout.text (l : Layout) (bs : Bytes) : Bytes :=
  l.fill false [] (match l.precision with
    | some p => bs.take p
    | none => bs)

/-- The sign of a number. -/
def Layout.sign (l : Layout) (negative : Bool) : Bytes :=
  if negative then ['-'] else if l.plus then ['+'] else if l.blank then [' '] else []

/-- The digits of a number in a base. -/
def digitsOf (base n : Nat) (upper : Bool) : Bytes :=
  let ds := Nat.toDigits base n
  if upper then ds.map Char.toUpper else ds

/-- Digits, at least as many as the precision says; none for zero if that is nought. -/
def Layout.digits (l : Layout) (base n : Nat) (upper : Bool) : Bytes :=
  let ds := if n = 0 && l.precision == some 0 then [] else digitsOf base n upper
  List.replicate (l.precision.getD 0 - ds.length) '0' ++ ds

/-- A whole number with a sign. -/
def Layout.signed (l : Layout) (n : Int) : Bytes :=
  l.fill (l.zeros && l.precision.isNone) (l.sign (n < 0)) (l.digits 10 n.natAbs false)

/-- A whole number without sign, by its conversion. -/
def Layout.unsigned (l : Layout) (conversion : Char) (n : Nat) : Bytes :=
  let zeros := l.zeros && l.precision.isNone
  match conversion with
  | 'o' =>
    let ds := l.digits 8 n false
    l.fill zeros [] (if l.other && ds.head? != some '0' then '0' :: ds else ds)
  | 'x' => l.fill zeros (if l.other && n != 0 then ['0', 'x'] else []) (l.digits 16 n false)
  | 'X' => l.fill zeros (if l.other && n != 0 then ['0', 'X'] else []) (l.digits 16 n true)
  | _ => l.fill zeros [] (l.digits 10 n false)

/-- The exponent of ten of a positive fraction: the greatest power of ten that is not above it. -/
def exponentOf (n d : Nat) : Int :=
  let w : Int := (Decimal.width n : Int) - Decimal.width d
  -- the fraction lies between `10 ^ (w - 1)` and `10 ^ (w + 1)`
  let (a, b) := Decimal.scaled 1 10 w
  if a * d ≤ n * b then w else w - 1

/-- `places + 1` digits of a positive fraction, and the exponent of the first. -/
def scientificDigits (places n d : Nat) : Bytes × Int :=
  let e := exponentOf n d
  let (a, b) := Decimal.scaled 1 10 ((places : Int) - e)
  let ds := Nat.toDigits 10 (Decimal.roundDiv (n * a) (d * b))
  if ds.length = places + 2 then (ds.dropLast, e + 1) else (ds, e)

/-- An exponent with its sign and at least `least` digits. -/
def exponentText (least : Nat) (mark : Char) (e : Int) : Bytes :=
  let ds := Nat.toDigits 10 e.natAbs
  mark :: (if e < 0 then '-' else '+') :: (List.replicate (least - ds.length) '0' ++ ds)

/-- Digits with a point after the first. -/
def pointed (point : Bool) : Bytes → Bytes
  | [] => []
  | d :: rest => if rest.isEmpty && !point then [d] else d :: '.' :: rest

/-- Without zeros at the end of the places, and without a point that nothing follows. -/
def trimPlaces (bs : Bytes) : Bytes :=
  if bs.contains '.' then
    let r := bs.reverse.dropWhile (· == '0')
    (if r.head? == some '.' then r.drop 1 else r).reverse
  else bs

/-- A fraction with a fixed number of places. -/
def fixedText (point : Bool) (places n d : Nat) : Bytes :=
  let t := Decimal.placesText places (Decimal.roundDiv (n * Nat.pow 10 places) d)
  if places = 0 && point then t ++ ['.'] else t

/-- A fraction in scientific notation. -/
def scientificText (point : Bool) (places n d : Nat) : Bytes :=
  let (ds, e) := if n = 0 then (List.replicate (places + 1) '0', 0) else scientificDigits places n d
  pointed point ds ++ exponentText 2 'e' e

/-- A fraction in whichever notation suits it, with so many digits. -/
def generalText (point : Bool) (digits n d : Nat) : Bytes :=
  let p := max digits 1
  let e := if n = 0 then 0 else (scientificDigits (p - 1) n d).2
  if -4 ≤ e && e < p then
    let t := fixedText point ((p : Int) - 1 - e).toNat n d
    if point then t else trimPlaces t
  else
    let (ds, e) := scientificDigits (p - 1) n d
    let t := pointed point ds
    (if point then t else trimPlaces t) ++ exponentText 2 'e' e

/-- A binary number in hexadecimal digits, with so many places if that is said. -/
def hexadecimalText (point : Bool) (places : Option Nat) (m : Nat) (q : Int) : Bytes :=
  let zeros := places.getD 0
  if m = 0 then pointed point (List.replicate (zeros + 1) '0') ++ exponentText 1 'p' 0
  else
    -- the first digit is one: fifty-two bits follow it
    let log := Nat.log2 m
    let whole := if log ≤ 52 then m * Nat.pow 2 (52 - log) else m / Nat.pow 2 (log - 52)
    let e : Int := q + log
    let (lead, fraction, count) := match places with
      | some p =>
        if p < 13 then
          let r := Decimal.roundDiv whole (Nat.pow 2 (52 - 4 * p))
          (r / Nat.pow 2 (4 * p), r % Nat.pow 2 (4 * p), p)
        else (1, whole % Nat.pow 2 52 * Nat.pow 16 (p - 13), p)
      | none => (1, whole % Nat.pow 2 52, 13)
    let ds := Nat.toDigits 16 fraction
    let ds := if count = 0 then [] else List.replicate (count - ds.length) '0' ++ ds
    let ds := if places.isNone then (ds.reverse.dropWhile (· == '0')).reverse else ds
    pointed point (Nat.toDigits 16 lead ++ ds) ++ exponentText 1 'p' e

/-- A floating point number, by its conversion. -/
def Layout.float (l : Layout) (conversion : Char) (x : Float) : Bytes :=
  let upper := 'A' ≤ conversion && conversion ≤ 'Z'
  let cased (bs : Bytes) : Bytes := if upper then bs.map Char.toUpper else bs
  let number (negative : Bool) (m : Nat) (q : Int) : Bytes :=
    let (n, d) := Decimal.scaled m 2 q
    let p := l.precision.getD 6
    let sign := l.sign negative
    match conversion.toLower with
    | 'f' => l.fill l.zeros sign (fixedText l.other p n d)
    | 'e' => l.fill l.zeros sign (cased (scientificText l.other p n d))
    | 'g' => l.fill l.zeros sign (cased (generalText l.other p n d))
    | _ => l.fill l.zeros (sign ++ cased ['0', 'x']) (cased (hexadecimalText l.other l.precision m q))
  match Decimal.Shape.ofFloat x with
  | .nan => l.fill false (l.sign false) (cased ['n', 'a', 'n'])
  | .infinite negative => l.fill false (l.sign negative) (cased ['i', 'n', 'f'])
  | .zero negative => number negative 0 0
  | .finite negative b => number negative b.m b.q

/-- A floating point number read from the start of bytes: its value, whether there was one, what
follows, and whether it is beyond the range. -/
structure FoundFloat where
  value : Float
  any : Bool
  rest : Bytes
  beyond : Bool := false

/-- Does a word stand at the start of bytes, in any case of its letters? -/
def startsWithWord (word : String) (bs : Bytes) : Bool :=
  String.ofList ((bs.take word.length).map Char.toLower) == word

/-- An exponent behind a mark: its value and what follows; nothing if there are no digits. -/
def exponent? (mark : Char) : Bytes → Option (Int × Bytes)
  | c :: rest =>
    if c.toLower != mark then none
    else
      let (negative, body) := Decimal.splitSign rest
      match Number.digits 10 0 0 body with
      | (_, 0, _) => none
      | (n, _, rest) => some (if negative then -(n : Int) else n, rest)
  | [] => none

/-- The places behind a point: their digits as a number, how many there are, and what follows. -/
def places (base : Nat) (whole : Nat) : Bytes → Nat × Nat × Bytes
  | '.' :: rest => Number.digits base whole 0 rest
  | rest => (whole, 0, rest)

/-- A floating point number in hexadecimal or decimal digits, without sign. -/
def readMagnitude (bs : Bytes) : FoundFloat :=
  let hexadecimal (body : Bytes) : Option FoundFloat :=
    let (w, count, rest) := Number.digits 16 0 0 body
    let (m, more, rest) := places 16 w rest
    if count + more = 0 then none
    else
      let (e, rest) := (exponent? 'p' rest).getD (0, rest)
      let (n, d) := Decimal.scaled m 2 (max (-5000) (min 5000 (e - 4 * more)))
      -- enough decimal digits to round rightly
      some ⟨Decimal.scale (n * Nat.pow 10 400 / d) (-400), true, rest, false⟩
  let decimal : FoundFloat :=
    let (w, count, rest) := Number.digits 10 0 0 bs
    let (m, more, rest) := places 10 w rest
    if count + more = 0 then ⟨0, false, bs, false⟩
    else
      let (e, rest) := (exponent? 'e' rest).getD (0, rest)
      let x := Decimal.scale m (e - more)
      let beyond := m != 0 && match Decimal.Shape.ofFloat x with
        | .infinite _ | .zero _ => true
        | _ => false
      ⟨x, true, rest, beyond⟩
  match bs with
  | '0' :: 'x' :: body | '0' :: 'X' :: body => (hexadecimal body).getD ⟨0, true, bs.drop 1, false⟩
  | _ => decimal

/-- A floating point number with white space and a sign before it. -/
def readFloat (bs : Bytes) : FoundFloat :=
  let (negative, body) := Decimal.splitSign (bs.dropWhile Number.isSpaceByte)
  let r : FoundFloat :=
    if startsWithWord "infinity" body then ⟨1.0 / 0.0, true, body.drop 8, false⟩
    else if startsWithWord "inf" body then ⟨1.0 / 0.0, true, body.drop 3, false⟩
    else if startsWithWord "nan" body then ⟨0.0 / 0.0, true, body.drop 3, false⟩
    else readMagnitude body
  if r.any then { r with value := if negative then -r.value else r.value } else { r with rest := bs }

/-- The byte that a backslash and what follows it stand for, and what is left. A backslash before
anything else stands for itself. -/
def escape : Bytes → Char × Bytes
  | c :: rest =>
    match c with
    | '\\' => ('\\', rest)
    | 'a' => (Char.ofNat 7, rest)
    | 'b' => (Char.ofNat 8, rest)
    | 'e' => (Char.ofNat 27, rest)
    | 'f' => (Char.ofNat 12, rest)
    | 'n' => ('\n', rest)
    | 'r' => ('\r', rest)
    | 't' => ('\t', rest)
    | 'v' => (Char.ofNat 11, rest)
    | c =>
      match Number.digits 8 0 0 ((c :: rest).take 3) with
      | (_, 0, _) => ('\\', c :: rest)
      | (n, count, _) => (Char.ofNat (n % 256), (c :: rest).drop count)
  | [] => ('\\', [])

theorem length_escape (bs : Bytes) : (escape bs).2.length ≤ bs.length := by
  unfold escape
  split
  · rename_i c rest
    split <;> try (simp only [List.length_cons]; omega)
    split
    · simp
    · simp only [List.length_drop]
      omega
  · simp

/-- Without the nought that stands before octal digits. -/
def dropNought : Bytes → Bytes
  | '0' :: d :: rest => if (Number.digit? 8 d).isSome then d :: rest else '0' :: d :: rest
  | bs => bs

theorem length_dropNought (bs : Bytes) : (dropNought bs).length ≤ bs.length := by
  unfold dropNought
  split
  · split <;> simp
  · exact Nat.le_refl _

/-- A text in which backslashes have a meaning, with a nought before octal digits; the end of all
output may stand in it. -/
def unescape (bs : Bytes) : Bytes × Bool :=
  match bs with
  | [] => ([], false)
  | '\\' :: 'c' :: _ => ([], true)
  | '\\' :: rest =>
    let more := unescape (escape (dropNought rest)).2
    ((escape (dropNought rest)).1 :: more.1, more.2)
  | c :: rest =>
    let more := unescape rest
    (c :: more.1, more.2)
termination_by bs.length
decreasing_by
  · have := length_escape (dropNought rest)
    have := length_dropNought rest
    simp only [List.length_cons]
    omega
  · simp

/-- What has been printed: the output and the complaints so far, both reversed, and the arguments
that are left. -/
structure Printing where
  output : Bytes := []
  complaints : List Bytes := []
  arguments : List Bytes
  /-- was an argument taken? -/
  taken : Bool := false

/-- Why printing ends before the end. -/
inductive Ending where
  /-- the output is over -/
  | ended
  | fault (message : Bytes)

/-- A step of printing. -/
abbrev Print := EStateM Ending Printing

/-- Print bytes. -/
def put (bs : Bytes) : Print Unit :=
  modify fun p => { p with output := bs.reverse ++ p.output }

/-- The next argument. -/
def argument? : Print (Option Bytes) := do
  let p ← get
  match p.arguments with
  | [] => return none
  | a :: rest => do
    set { p with arguments := rest, taken := true }
    return some a

/-- Complain, and print on. -/
def complain (argument : Bytes) (what : String) : Print Unit :=
  modify fun p => { p with
    complaints := (argument ++ Bytes.ofLiteral (": " ++ what)) :: p.complaints }

/-- Complain about an argument that is no number, or not all of which is one. -/
def check (argument rest : Bytes) (any beyond : Bool) : Print Unit := do
  if !rest.isEmpty then
    complain argument (if any then "not completely converted" else "expected numeric value")
  else if beyond then complain argument "Numerical result out of range"

/-- The number that the byte behind a quotation mark has. -/
def quotedByte? : Bytes → Option Nat
  | '"' :: rest | '\'' :: rest => some ((rest.head?.map Char.toNat).getD 0)
  | _ => none

/-- The next argument as a whole number with a sign. -/
def signedArgument : Print Int := do
  match ← argument? with
  | none => return 0
  | some a => match quotedByte? a with
    | some n => return n
    | none => do
      let r := Number.read 0 a
      let n := max Number.least (min Number.greatest r.value)
      check a r.rest r.any (n != r.value)
      return n

/-- The next argument as a whole number without sign. -/
def unsignedArgument : Print Nat := do
  match ← argument? with
  | none => return 0
  | some a => match quotedByte? a with
    | some n => return n
    | none => do
      let r := Number.read 0 a
      let beyond := decide (Nat.pow 2 64 ≤ r.value.natAbs)
      check a r.rest r.any beyond
      return if beyond then Nat.pow 2 64 - 1 else Number.unsigned r.value

/-- The next argument as a floating point number. -/
def floatArgument : Print Float := do
  match ← argument? with
  | none => return 0
  | some a => match quotedByte? a with
    | some n => return Float.ofNat n
    | none => do
      let r := readFloat a
      check a r.rest r.any r.beyond
      return r.value

/-- A width or precision: digits, or a star that takes an argument; and what follows. -/
def measure (bs : Bytes) : Print (Option Int × Bytes) := do
  match bs with
  | '*' :: rest => do
    let n ← signedArgument
    return (some (Int.bmod n (Nat.pow 2 32)), rest)
  | bs => match Number.digits 10 0 0 bs with
    | (_, 0, rest) => return (none, rest)
    | (n, _, rest) => return (some n, rest)

/-- One directive, after its percent sign; gives what follows it. -/
def directive (bs : Bytes) : Print Bytes := do
  let isFlag (c : Char) : Bool := c == '#' || c == '-' || c == '+' || c == ' ' || c == '0'
  let flags := bs.takeWhile isFlag
  let (width, rest) ← measure (bs.dropWhile isFlag)
  let (precision, rest) ← match rest with
    | '.' :: rest => do
      let (p, rest) ← measure rest
      pure (some (p.getD 0), rest)
    | rest => pure (none, rest)
  let w := width.getD 0
  let l : Layout :=
    { leftward := flags.contains '-' || w < 0
      plus := flags.contains '+'
      blank := flags.contains ' '
      zeros := flags.contains '0'
      other := flags.contains '#'
      width := w.natAbs
      precision := (precision.filter (0 ≤ ·)).map Int.toNat }
  match rest with
  | [] => throw (.fault (Bytes.ofLiteral "missing format character"))
  | c :: rest' => do
    match c with
    | 'b' => do
      let (text, ended) := unescape ((← argument?).getD [])
      put (l.text text)
      if ended then throw .ended
    | 'c' => do
      let c := ((← argument?).bind (·.head?)).getD (Char.ofNat 0)
      put (l.fill false [] [c])
    | 's' => put (l.text ((← argument?).getD []))
    | 'd' | 'i' => put (l.signed (← signedArgument))
    | 'o' | 'u' | 'x' | 'X' => put (l.unsigned c (← unsignedArgument))
    | 'a' | 'A' | 'e' | 'E' | 'f' | 'F' | 'g' | 'G' => put (l.float c (← floatArgument))
    | _ =>
      let written := bs.take (bs.length - rest'.length)
      throw (.fault ('%' :: written ++ Bytes.ofLiteral ": invalid directive"))
    return rest'

/-- One pass over a format. Each step leaves less of it, so its length is fuel enough. -/
def pass (fuel : Nat) (format : Bytes) : Print Unit :=
  match fuel, format with
  | 0, _ | _, [] => return
  | fuel + 1, '\\' :: rest => do
    let (c, rest) := escape rest
    put [c]
    pass fuel rest
  | fuel + 1, '%' :: '%' :: rest => do
    put ['%']
    pass fuel rest
  | fuel + 1, '%' :: rest => do
    let rest ← directive rest
    pass fuel rest
  | fuel + 1, c :: rest => do
    put [c]
    pass fuel rest

/-- Passes over a format as long as arguments are left; each takes one at least. -/
def passes (fuel : Nat) (format : Bytes) : Print Unit :=
  match fuel with
  | 0 => return
  | fuel + 1 => do
    pass (format.length + 1) format
    let p ← get
    if p.taken && !p.arguments.isEmpty then passes fuel format

/-- What came of a format: the output, the complaints on the way, and the fault that ended it. -/
structure Printed where
  output : Bytes
  complaints : List Bytes
  fault : Option Bytes

/-- Print arguments in a format. -/
def print (format : Bytes) (arguments : List Bytes) : Printed :=
  let printed (p : Printing) (fault : Option Bytes) : Printed :=
    ⟨p.output.reverse, p.complaints.reverse, fault⟩
  match passes (arguments.length + 1) format { arguments } with
  | .ok _ p => printed p none
  | .error .ended p => printed p none
  | .error (.fault m) p => printed p (some m)

/-- Arguments with blanks between them, in which backslashes have a meaning; the end of the output
may stand in one. -/
def echoWords (lineFeed : Bool) : List Bytes → Bytes
  | [] => if lineFeed then ['\n'] else []
  | [a] =>
    let (text, ended) := unescape a
    if ended then text else text ++ echoWords lineFeed []
  | a :: rest =>
    let (text, ended) := unescape a
    if ended then text else text ++ ' ' :: echoWords lineFeed rest

/-- The output of `echo`. -/
def echo : List Bytes → Bytes
  | ['-', 'n'] :: rest => echoWords false rest
  | arguments => echoWords true arguments

end MergeGate.Shell.Format
