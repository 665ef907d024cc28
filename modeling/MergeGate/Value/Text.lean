/-
The two texts of a value. `show` is the exact form that messages quote: texts between quotes, lists
in brackets, maps in braces. `plain` is the form that is inserted into commands, variables and
instance ids: a text stands for itself, everything else is shown.
-/
import MergeGate.Decimal.Read
import MergeGate.Text.Quoted
import MergeGate.Value.Basic

namespace MergeGate

/-- Two or more digits. -/
def Moment.pad (width n : Nat) : String :=
  let ds := Nat.toDigits 10 n
  String.ofList (List.replicate (width - ds.length) '0' ++ ds)

/-- A difference from UTC as hours and minutes, and seconds when there are any. -/
def Moment.offsetText (o : Int) : String :=
  let n := o.natAbs
  let sign := if o < 0 then "-" else "+"
  let seconds := n % 60
  sign ++ pad 2 (n / 3600) ++ ":" ++ pad 2 (n / 60 % 60) ++
    (if seconds = 0 then "" else ":" ++ pad 2 seconds)

/-- A moment as date, time and offset. -/
def Moment.plain (m : Moment) : String :=
  pad 4 m.year ++ "-" ++ pad 2 m.month ++ "-" ++ pad 2 m.day ++ " " ++ pad 2 m.hour ++ ":" ++
    pad 2 m.minute ++ ":" ++ pad 2 m.second ++
    (if m.micro = 0 then "" else "." ++ pad 6 m.micro) ++
    (m.offset.map offsetText).getD ""

/-- A number of seconds other than zero in its constructor form: whole days rounded down, and the
seconds left. -/
def Moment.deltaText (o : Int) : String :=
  let days := Int.fdiv o 86400
  let seconds := Int.fmod o 86400
  let parts := (if days = 0 then [] else ["days=" ++ toString days]) ++
    (if seconds = 0 then [] else ["seconds=" ++ toString seconds])
  "datetime.timedelta(" ++ ", ".intercalate parts ++ ")"

/-- A difference from UTC in its constructor form. -/
def Moment.zoneText (o : Int) : String :=
  if o = 0 then "datetime.timezone.utc" else "datetime.timezone(" ++ deltaText o ++ ")"

/-- A moment in its constructor form; zero seconds and microseconds at the end are left out. -/
def Moment.shown (m : Moment) : String :=
  let always := [m.year, m.month, m.day, m.hour, m.minute]
  let tail := if m.micro ≠ 0 then [m.second, m.micro] else if m.second ≠ 0 then [m.second] else []
  let zone := match m.offset with
    | none => []
    | some o => ["tzinfo=" ++ zoneText o]
  "datetime.datetime(" ++ ", ".intercalate ((always ++ tail).map toString ++ zone) ++ ")"

namespace Value

/-- One byte between quotes `q`. -/
def byteChars (q : Char) (b : UInt8) : List Char :=
  let c := Char.ofNat b.toNat
  if c = q || c = '\\' then ['\\', c]
  else if c = '\n' then ['\\', 'n']
  else if c = '\r' then ['\\', 'r']
  else if c = '\t' then ['\\', 't']
  else if 32 ≤ b.toNat && b.toNat < 127 then [c]
  else '\\' :: 'x' :: Text.hex 2 b.toNat

/-- Bytes between quotes. -/
def bytesText (bs : List UInt8) : String :=
  let q := Text.quoteFor (bs.map fun b => Char.ofNat b.toNat)
  String.ofList ('b' :: q :: bs.flatMap (byteChars q) ++ [q])

mutual

/-- The exact form of a value. -/
def shown : Value → String
  | null => "None"
  | bool b => if b then "True" else "False"
  | int n => toString n
  | float x => Decimal.write x
  | text s => Text.quoted s
  | bytes bs => bytesText bs
  | date y m d =>
    "datetime.date(" ++ ", ".intercalate [toString y, toString m, toString d] ++ ")"
  | moment m => m.shown
  | list items => "[" ++ ", ".intercalate (shownAll items) ++ "]"
  | tuple items => match shownAll items with
    | [one] => "(" ++ one ++ ",)"
    | many => "(" ++ ", ".intercalate many ++ ")"
  | set items => match shownAll items with
    | [] => "set()"
    | many => "\x7b" ++ ", ".intercalate many ++ "\x7d"
  | map entries => "\x7b" ++ ", ".intercalate (shownEntries entries) ++ "\x7d"
  | again _ isMap => if isMap then "\x7b...\x7d" else "[...]"

/-- The exact forms of items. -/
def shownAll : List Value → List String
  | [] => []
  | v :: rest => shown v :: shownAll rest

/-- The exact forms of entries. -/
def shownEntries : List (Value × Value) → List String
  | [] => []
  | (k, v) :: rest => (shown k ++ ": " ++ shown v) :: shownEntries rest

end

mutual

/-- Does the value hold an integer with too many digits to write? -/
def isTooLong : Value → Bool
  | int n => Decimal.isTooLong n
  | list items => anyTooLong items
  | tuple items => anyTooLong items
  | set items => anyTooLong items
  | map entries => anyTooLongIn entries
  | _ => false

/-- Does an item hold one? -/
def anyTooLong : List Value → Bool
  | [] => false
  | v :: rest => isTooLong v || anyTooLong rest

/-- Does an entry hold one? -/
def anyTooLongIn : List (Value × Value) → Bool
  | [] => false
  | (k, v) :: rest => isTooLong k || isTooLong v || anyTooLongIn rest

end

/-- The form of a value that is inserted into other text. -/
def plain : Value → String
  | text s => s
  | date y m d => Moment.pad 4 y ++ "-" ++ Moment.pad 2 m ++ "-" ++ Moment.pad 2 d
  | moment m => m.plain
  | v => v.shown

@[simp] theorem plain_text (s : String) : plain (text s) = s := rfl

end Value

end MergeGate
