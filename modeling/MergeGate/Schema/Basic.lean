/-
Checking dynamic values against declared shapes. A checker gives the typed value, or every problem
it found with the path to it: problems of a record in the order of its fields, problems of a list
or map in the order of its items.
-/
import MergeGate.Assoc
import MergeGate.Decimal.Read
import MergeGate.Value.Text

namespace MergeGate.Schema

/-- One step of a path into a value. -/
inductive Part where
  | key (name : String)
  | index (n : Int)
  deriving DecidableEq, Repr

/-- A part as text. -/
def Part.text : Part → String
  | key name => name
  | index n => toString n

/-- What is wrong at one place. -/
inductive Flaw where
  | notText
  | unreadableText
  | tooShortText
  | unreadableBool
  | notBool
  | unreadableInt
  | fractionalInt
  | notFinite
  | intTooLarge
  | notInt
  | unreadableNumber
  | notNumber
  | notList
  | tooShortList
  | notMap
  | notRecord (name : String)
  | missing
  | extra
  | keyNotText
  | notOneOf (choices : List String)
  | custom (message : String)
  deriving DecidableEq, Repr

/-- Choices as a phrase: the last one after "or". -/
def choicesText : List String → String
  | [] => ""
  | [a] => "'" ++ a ++ "'"
  | [a, b] => "'" ++ a ++ "' or '" ++ b ++ "'"
  | a :: rest => "'" ++ a ++ "', " ++ choicesText rest

namespace Flaw

/-- The flaw in words. -/
def message : Flaw → String
  | notText => "Input should be a valid string"
  | unreadableText => "Input should be a valid string, unable to parse raw data as a unicode string"
  | tooShortText => "String should have at least 1 character"
  | unreadableBool => "Input should be a valid boolean, unable to interpret input"
  | notBool => "Input should be a valid boolean"
  | unreadableInt => "Input should be a valid integer, unable to parse string as an integer"
  | fractionalInt => "Input should be a valid integer, got a number with a fractional part"
  | notFinite => "Input should be a finite number"
  | intTooLarge => "Unable to parse input string as an integer, exceeded maximum size"
  | notInt => "Input should be a valid integer"
  | unreadableNumber => "Input should be a valid number, unable to parse string as a number"
  | notNumber => "Input should be a valid number"
  | notList => "Input should be a valid list"
  | tooShortList => "List should have at least 1 item after validation, not 0"
  | notMap => "Input should be a valid dictionary"
  | notRecord name => "Input should be a valid dictionary or instance of " ++ name
  | missing => "Field required"
  | extra => "Extra inputs are not permitted"
  | keyNotText => "Keys should be strings"
  | notOneOf choices => "Input should be " ++ choicesText choices
  | custom message => "Value error, " ++ message

/-- The name under which programs know the flaw. -/
def code : Flaw → String
  | notText => "string_type"
  | unreadableText => "string_unicode"
  | tooShortText => "string_too_short"
  | unreadableBool => "bool_parsing"
  | notBool => "bool_type"
  | unreadableInt => "int_parsing"
  | fractionalInt => "int_from_float"
  | notFinite => "finite_number"
  | intTooLarge => "int_parsing_size"
  | notInt => "int_type"
  | unreadableNumber => "float_parsing"
  | notNumber => "float_type"
  | notList => "list_type"
  | tooShortList => "too_short"
  | notMap => "dict_type"
  | notRecord _ => "model_type"
  | missing => "missing"
  | extra => "extra_forbidden"
  | keyNotText => "invalid_key"
  | notOneOf _ => "literal_error"
  | custom _ => "value_error"

end Flaw

/-- A flaw and where it is. -/
structure Problem where
  path : List Part
  flaw : Flaw
  deriving DecidableEq, Repr

/-- A problem on one line. -/
def Problem.text (p : Problem) : String :=
  ".".intercalate (p.path.map Part.text) ++ ": " ++ p.flaw.message

/-- A checked value, or all problems found. -/
abbrev Checked (α : Type) := Except (List Problem) α

/-- A checker of one shape. -/
abbrev Checker (α : Type) := Value → Checked α

variable {α β : Type}

/-- A flaw at the place itself. -/
def flawed (f : Flaw) : Checked α := .error [⟨[], f⟩]

/-- What was found at a place below. -/
def under (part : Part) (c : Checked α) : Checked α :=
  c.mapError fun ps => ps.map fun p => { p with path := part :: p.path }

/-- Two checks together: the problems of both. -/
def both (f : Checked (α → β)) (x : Checked α) : Checked β :=
  match f, x with
  | .ok f, .ok x => .ok (f x)
  | .ok _, .error ps => .error ps
  | .error ps, .ok _ => .error ps
  | .error ps, .error qs => .error (ps ++ qs)

/-- The text that bytes encode in UTF-8. -/
def decoded? (bs : List UInt8) : Option String := String.fromUTF8? ⟨bs.toArray⟩

/-- Texts, and bytes that encode one. -/
def text : Checker String
  | .text s => .ok s
  | .bytes bs => match decoded? bs with
    | some s => .ok s
    | none => flawed .unreadableText
  | _ => flawed .notText

/-- Texts that are not empty. -/
def someText : Checker String := fun v =>
  (text v).bind fun s => if s = "" then flawed .tooShortText else .ok s

/-- The words for true and false, in lower case. -/
def boolWords : List (String × Bool) :=
  [("0", false), ("off", false), ("f", false), ("false", false), ("n", false), ("no", false),
    ("1", true), ("on", true), ("t", true), ("true", true), ("y", true), ("yes", true)]

/-- Does a number fit sixty-four bits? -/
def fitsWord (n : Int) : Bool := decide (-0x8000000000000000 ≤ n) && decide (n < 0x8000000000000000)

/-- The truth value a word stands for. -/
def boolOfText (s : String) : Checked Bool :=
  match boolWords.lookup (String.ofList (s.toList.map Char.toLower)) with
  | some b => .ok b
  | none => flawed .unreadableBool

/-- The truth value a number stands for. -/
def boolOfInt (n : Int) : Checked Bool :=
  if n = 0 then .ok false
  else if n = 1 then .ok true
  else if fitsWord n then flawed .unreadableBool
  else flawed .notBool

/-- Truth values, and the numbers and words that stand for them. -/
def bool : Checker Bool
  | .bool b => .ok b
  | .int n => boolOfInt n
  | .float x => match (Value.float x).fraction? with
    | some (n, d) => if n % d = 0 then boolOfInt (n / d) else flawed .notBool
    | none => flawed .notBool
  | .text s => boolOfText s
  | .bytes bs => (decoded? bs).elim (flawed .unreadableBool) boolOfText
  | _ => flawed .notBool

/-- A digit that a number may begin with, or a minus sign. -/
def isLeading (c : Char) : Bool := c == '-' || (c.isDigit && c != '0')

/-- The digits of a number without the zeros and underscores in front of it; a minus sign may stand
behind those. One zero stays when nothing else is left, and one character stays before a point. -/
def withoutZeros : List Char → Option (List Char)
  | '0' :: rest => go '0' rest
  | c :: rest => if isLeading c then some (c :: rest) else none
  | [] => none
where
  go (last : Char) : List Char → Option (List Char)
    | [] => some [last]
    | c :: rest =>
      if c == '0' || c == '_' then go c rest
      else if isLeading c then some (c :: rest)
      else if c == '.' then some (last :: c :: rest)
      else none

/-- The digits before a fraction of zeros; all digits when there is no such fraction. -/
def withoutFraction (cs : List Char) : List Char :=
  match Decimal.cutAt (· == '.') cs with
  | (whole, some (f :: more)) => if (f :: more).all (· == '0') then whole else cs
  | _ => cs

/-- Do two underscores stand side by side? -/
def hasDoubleLine : List Char → Bool
  | '_' :: '_' :: _ => true
  | _ :: rest => hasDoubleLine rest
  | [] => false

/-- The digits without the underscores between them; underscores at an end or side by side stay. -/
def withoutLines (cs : List Char) : List Char :=
  if cs.head? == some '_' || cs.getLast? == some '_' || hasDoubleLine cs then cs
  else cs.filter (· != '_')

/-- The integer that a sign and digits without leading zeros write. -/
def plainInt? (cs : List Char) : Option Int :=
  let (negative, ds) := match cs with
    | '-' :: ds => (true, ds)
    | ds => (false, ds)
  if ds.isEmpty || !ds.all Char.isDigit || (ds.head? == some '0' && ds.length != 1) then none
  else
    let n : Int := Text.ofDigits (ds.map fun c => c.toNat - '0'.toNat)
    some (if negative then -n else n)

/-- The integer a text stands for: a sign, zeros, digits with single underscores between them, and
at most a fraction of zeros. -/
def intOfText (s : String) : Checked Int :=
  let trimmed := Text.trim s.toList
  let (negative, body) := match trimmed with
    | '-' :: rest => (true, rest)
    | '+' :: '-' :: _ => (false, [])
    | '+' :: rest => (false, rest)
    | cs => (false, cs)
  match withoutZeros body with
  | none => flawed .unreadableInt
  | some ds =>
    let ds := withoutLines (withoutFraction ds)
    let cs := if negative then '-' :: ds else ds
    if Decimal.maxDigits < cs.length then flawed .intTooLarge
    else ((plainInt? cs).map .ok).getD (flawed .unreadableInt)

/-- Integers, and the truth values, whole numbers and texts that stand for them. -/
def int : Checker Int
  | .int n => .ok n
  | .bool b => .ok (if b then 1 else 0)
  | .float x => match (Value.float x).fraction? with
    | none => flawed .notFinite
    | some (n, d) =>
      if n % d ≠ 0 then flawed .fractionalInt
      else
        let k := n / d
        if -0x8000000000000000 < k ∧ k < 0x8000000000000000 then .ok k else flawed .intTooLarge
  | .text s => intOfText s
  | .bytes bs => ((decoded? bs).map intOfText).getD (flawed .unreadableInt)
  | _ => flawed .notInt

/-- One of the given texts. -/
def oneOf (choices : List String) : Checker String
  | .text s => if choices.contains s then .ok s else flawed (.notOneOf choices)
  | _ => flawed (.notOneOf choices)

/-- Anything. -/
def anything : Checker Value := .ok

/-- Null, or what the checker takes. -/
def optional (c : Checker α) : Checker (Option α)
  | .null => .ok none
  | v => (c v).map some

/-- Check items one by one, numbered from `n` on. -/
def itemsFrom (c : Checker α) (n : Nat) : List Value → Checked (List α)
  | [] => .ok []
  | v :: rest => both ((under (.index n) (c v)).map List.cons) (itemsFrom c (n + 1) rest)

/-- Lists, tuples and sets. -/
def list (c : Checker α) : Checker (List α) := fun v => match v with
  | .list _ | .tuple _ | .set _ => itemsFrom c 0 v.itemsOf
  | _ => flawed .notList

/-- Lists that are not empty. -/
def someList (c : Checker α) : Checker (List α) := fun v =>
  (list c v).bind fun xs => if xs.isEmpty then flawed .tooShortList else .ok xs

/-- The part of a path that stands for a key. -/
def keyPart : Value → Part
  | .text s => .key s
  | .bool b => .index (if b then 1 else 0)
  | .int n =>
    if fitsWord n then .index n
    else if Decimal.isTooLong n then .key "<unprintable int object>"
    else .key (toString n)
  | v => .key v.shown

/-- The key of an entry must be a text. -/
def entryKey (k : Value) : Checked String := under (keyPart k) (under (.key "[key]") (text k))

/-- Check entries one by one: the key, then the value. -/
def entries (c : Checker α) : List (Value × Value) → Checked (List (String × α))
  | [] => .ok []
  | (k, v) :: rest =>
    both ((both ((entryKey k).map Prod.mk) (under (keyPart k) (c v))).map List.cons) (entries c rest)

/-- Maps with text keys; of two keys that are the same text the last one holds. -/
def map (c : Checker α) : Checker (Assoc α) := fun v => match v with
  | .map _ => (entries c v.entriesOf).map Assoc.ofPairs
  | _ => flawed .notMap

/-- A map to be read field by field. -/
def record (name : String) : Checker (List (Value × Value)) := fun v => match v with
  | .map _ => .ok v.entriesOf
  | _ => flawed (.notRecord name)

/-- The value of a field under the first of its names that is there. -/
def find (names : List String) (es : List (Value × Value)) : Option Value :=
  names.findSome? fun n => Value.field? n es

/-- A field with other names; problems are shown under the first name. -/
def fieldNamed (names : List String) (default : Option α) (c : Checker α)
    (es : List (Value × Value)) : Checked α :=
  under (.key (names.headD "")) (match find names es with
    | some v => c v
    | none => match default with
      | some d => .ok d
      | none => flawed .missing)

/-- A field that must be there. -/
def required (name : String) (c : Checker α) (es : List (Value × Value)) : Checked α :=
  fieldNamed [name] none c es

/-- A field that has a default. -/
def defaulted (name : String) (d : α) (c : Checker α) (es : List (Value × Value)) : Checked α :=
  fieldNamed [name] (some d) c es

/-- No other fields than the given ones. -/
def closed (known : List String) : List (Value × Value) → Checked Unit
  | [] => .ok ()
  | (k, _) :: rest =>
    let here : Checked Unit := match k with
      | .text s => if known.contains s then .ok () else under (.key s) (flawed .extra)
      | k => under (keyPart k) (flawed .keyNotText)
    both (here.map fun _ u => u) (closed known rest)

/-- Problems below the name of a shape. -/
def labelled (name : String) (ps : List Problem) : List Problem :=
  ps.map fun p => { p with path := .key name :: p.path }

/-- The first shape that takes the value; if none does, the problems of all, each under its name. -/
def orElse (names : String × String) (a b : Checked α) : Checked α :=
  match a with
  | .ok x => .ok x
  | .error ps => match b with
    | .ok x => .ok x
    | .error qs => .error (labelled names.1 ps ++ labelled names.2 qs)

end MergeGate.Schema
