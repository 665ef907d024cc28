/-
Values from YAML documents. Scalars become what their tags say at once; a collection is begun when
it is reached and filled when everything reached before it has been, so a document is made level by
level and the first fault met on that way counts. Mappings merge what their merge keys name. A
collection may hold itself; the value then marks the place where it would begin again.
-/
import MergeGate.Decimal.Read
import MergeGate.Text.Small
import MergeGate.Value.Text
import MergeGate.Yaml.Node

namespace MergeGate.Yaml

namespace Fault

/-- What went wrong, in words. -/
def message : Fault → String
  | malformed => "malformed"
  | badInteger base text => Decimal.notInteger base text
  | longInteger digits => Decimal.tooLongToRead digits
  | hugeFloat => "int too large to convert to float"
  | badFloat text => "could not convert string to float: " ++ Text.quoted text
  | badDate message => message
  | badBool word => Text.quoted word
  | emptyNumber => "string index out of range"
  | badTimestamp => "'NoneType' object has no attribute 'groupdict'"
  | badCodePoint n =>
    if n < 0x80000000 then "chr() arg not in range(0x110000)"
    else "Python int too large to convert to C int"

end Fault

/-! Scalars -/

/-- The value of a digit in bases up to sixteen. -/
def digitIn? (base : Nat) (c : Char) : Option Nat :=
  ((Text.digitValue? c).or (hexDigit? c)).filter (· < base)

/-- Past the mark of a base, if the text has it. -/
def dropBase (base : Nat) : List Char → List Char
  | '0' :: m :: rest =>
    let m := m.toLower
    if (base = 2 ∧ m = 'b') ∨ (base = 8 ∧ m = 'o') ∨ (base = 16 ∧ m = 'x') then rest
    else '0' :: m :: rest
  | cs => cs

/-- The integer that a text writes in a base. -/
def intIn (base : Nat) (cs : List Char) : Except Fault Int :=
  let (negative, body) := Decimal.splitSign (Text.trim cs)
  let ds := (dropBase base body).map (digitIn? base)
  let run := (ds.takeWhile Option.isSome).length
  if base = 10 && decide (Decimal.maxDigits < run) then .error (.longInteger run)
  else if ds.isEmpty || ds.any Option.isNone then .error (.badInteger base (String.ofList cs))
  else
    let n : Int := ds.foldl (fun n d => base * n + d.getD 0) 0
    .ok (if negative then -n else n)

/-- Several integers. -/
def intsIn (base : Nat) : List (List Char) → Except Fault (List Int)
  | [] => .ok []
  | cs :: rest => do
    let n ← intIn base cs
    let more ← intsIn base rest
    return n :: more

/-- An integer: binary, octal, decimal, hexadecimal or in base sixty, underscores left out. -/
def intOf (s : String) : Except Fault Int := do
  let cs := s.toList.filter (· != '_')
  if cs.isEmpty then .error .emptyNumber
  let (negative, body) := Decimal.splitSign cs
  let signed (n : Int) : Int := if negative then -n else n
  match body with
  | ['0'] => return 0
  | '0' :: 'b' :: rest => (intIn 2 rest).map signed
  | '0' :: 'x' :: rest => (intIn 16 rest).map signed
  | '0' :: _ => (intIn 8 body).map signed
  | [] => .error .emptyNumber
  | _ =>
    let parts := Plain.cut ':' body
    let ns ← intsIn 10 parts
    return signed (ns.foldl (fun n d => 60 * n + d) 0)

/-- A floating point number without sign. -/
def floatIn (cs : List Char) : Except Fault Float :=
  match Decimal.readFloat? (String.ofList cs) with
  | some x => .ok x
  | none => .error (.badFloat (String.ofList cs))

/-- Several floating point numbers. -/
def floatsIn : List (List Char) → Except Fault (List Float)
  | [] => .ok []
  | cs :: rest => do
    let x ← floatIn cs
    let more ← floatsIn rest
    return x :: more

/-- Parts in base sixty, the last first: each counts sixty times as much as the one before. -/
def addSixties (sum : Float) (base : Nat) : List Float → Except Fault Float
  | [] => .ok sum
  | d :: rest =>
    let unit := Float.ofScientific base false 0
    if unit.isInf then .error .hugeFloat else addSixties (sum + d * unit) (base * 60) rest

/-- A floating point number, perhaps in base sixty, underscores left out. -/
def floatOf (s : String) : Except Fault Float := do
  let cs := (Text.lower (String.ofList (s.toList.filter (· != '_')))).toList
  if cs.isEmpty then .error .emptyNumber
  let (negative, body) := Decimal.splitSign cs
  let signed (x : Float) : Float := if negative then -x else x
  if body == ['.', 'i', 'n', 'f'] then return signed (1.0 / 0.0)
  else if body == ['.', 'n', 'a', 'n'] then return 0.0 / 0.0
  else match Plain.cut ':' body with
    | [_] => (floatIn body).map signed
    | parts => do
      let xs ← floatsIn parts
      (addSixties 0.0 1 xs.reverse).map signed

/-- Is the text the name of the one not-a-number that all such scalars share? -/
def isSharedNan (s : String) : Bool :=
  let cs := (s.toList.filter (· != '_')).map Char.toLower
  (Decimal.splitSign cs).2 == ['.', 'n', 'a', 'n']

/-- Days of a month. -/
def daysIn (year month : Nat) : Nat :=
  if month = 2 then
    if year % 4 = 0 ∧ (year % 100 ≠ 0 ∨ year % 400 = 0) then 29 else 28
  else if month = 4 ∨ month = 6 ∨ month = 9 ∨ month = 11 then 30
  else 31

/-- ASCII digits as a number. -/
def natOf (cs : List Char) : Nat := Text.ofDigits (cs.filterMap Text.asciiDigit?)

/-- A date that exists. -/
def checkDate (year month day : Nat) : Except Fault Unit :=
  if year < 1 then .error (.badDate ("year " ++ toString year ++ " is out of range"))
  else if month < 1 ∨ 12 < month then .error (.badDate "month must be in 1..12")
  else if day < 1 ∨ daysIn year month < day then .error (.badDate "day is out of range for month")
  else .ok ()

/-- A time of day that exists. -/
def checkTime (hour minute second : Nat) : Except Fault Unit :=
  if 23 < hour then .error (.badDate "hour must be in 0..23")
  else if 59 < minute then .error (.badDate "minute must be in 0..59")
  else if 59 < second then .error (.badDate "second must be in 0..59")
  else .ok ()

/-- Seconds east of UTC; less than a day. -/
def offsetOf : Option (Bool × List Char × List Char) → Except Fault Int
  | none => .ok 0
  | some (west, hours, minutes) =>
    let n : Int := natOf hours * 3600 + natOf minutes * 60
    let offset := if west then -n else n
    if 86400 ≤ n then
      .error (.badDate ("offset must be a timedelta strictly between -timedelta(hours=24) and " ++
        "timedelta(hours=24), not " ++ Moment.deltaText offset ++ "."))
    else .ok offset

/-- A date or a moment. -/
def timestampOf (s : String) : Except Fault Value :=
  match Timestamp.read? (dropLineFeed s.toList) with
  | none => .error .badTimestamp
  | some t => do
    let year := natOf t.year
    let month := natOf t.month
    let day := natOf t.day
    match t.time with
    | none =>
      checkDate year month day
      return .date year month day
    | some (hour, minute, second, fraction) =>
      let micro := natOf ((fraction ++ List.replicate 6 '0').take 6)
      let offset ← match t.zone with
        | none => pure none
        | some z => (offsetOf z).map some
      checkDate year month day
      checkTime (natOf hour) (natOf minute) (natOf second)
      return .moment
        { year, month, day, hour := natOf hour, minute := natOf minute, second := natOf second,
          micro, offset }

/-- The truth value of a word. -/
def boolOf (s : String) : Except Fault Bool :=
  let word := Text.lower s
  if ["yes", "true", "on"].contains word then .ok true
  else if ["no", "false", "off"].contains word then .ok false
  else .error (.badBool word)

/-- The value of a character of base sixty-four. -/
def sextet? (c : Char) : Option Nat :=
  if 'A' ≤ c && c ≤ 'Z' then some (c.toNat - 65)
  else if 'a' ≤ c && c ≤ 'z' then some (c.toNat - 71)
  else if c.isDigit then some (c.toNat + 4)
  else if c = '+' then some 62
  else if c = '/' then some 63
  else none

/-- The bytes that characters of base sixty-four write, four characters giving three of them. What
is no such character is passed over; `count` of the current four have been read, `bits` holds what
they have left over, and `pads` counts the padding after them. -/
def bytesFrom (count bits pads : Nat) : List Char → Option (List UInt8)
  | [] => if count = 0 then some [] else none
  | c :: rest =>
    if c = '=' then
      if 2 ≤ count ∧ 4 ≤ count + pads + 1 then some []
      else bytesFrom count bits (if 2 ≤ count then pads + 1 else pads) rest
    else match sextet? c with
      | none => bytesFrom count bits pads rest
      | some d =>
        let more := if count = 3 then bytesFrom 0 0 0 rest else bytesFrom (count + 1) d 0 rest
        let byte (n : Nat) : Option (List UInt8) := more.map (UInt8.ofNat (n % 256) :: ·)
        if count = 0 then more
        else if count = 1 then byte (bits * 4 + d / 16)
        else if count = 2 then byte (bits * 16 + d / 4)
        else byte (bits * 64 + d)

/-- Bytes in base sixty-four. -/
def bytesOf (s : String) : Except Fault Value :=
  if s.toList.all (·.toNat < 128) then
    ((bytesFrom 0 0 0 s.toList).map fun bs => Except.ok (.bytes bs)).getD (.error .malformed)
  else .error .malformed

/-- The value of a scalar. -/
def scalarOf (tag : Tag) (s : String) : Except Fault Value :=
  match tag with
  | .null => .ok .null
  | .bool => (boolOf s).map .bool
  | .int => (intOf s).map .int
  | .float => (floatOf s).map .float
  | .timestamp => timestampOf s
  | .binary => bytesOf s
  | .text => .ok (.text s)
  | _ => .error .malformed

/-- The tags of scalars. -/
def Tag.isScalar : Tag → Bool
  | null | bool | int | float | timestamp | binary | text => true
  | _ => false

/-! Collections -/

/-- What has been made of a node. -/
inductive Made where
  | atom (v : Value)
  /-- a not-a-number: two of them are one key only if they are one object -/
  | nan (object : Nat)
  /-- a collection, which may still have to be filled -/
  | collection (object : Nat)

/-- What a collection holds. -/
inductive Content where
  | list (items : List Made)
  | pairs (items : List (Made × Made))
  | set (members : List Made)
  | map (entries : List (Made × Made))

/-- A document in the making. -/
structure Builder where
  nodes : Array Node
  /-- what has been made of each node -/
  made : Array (Option Made)
  contents : Array Content := #[]
  /-- the nodes of the collections, in the order in which they are filled -/
  begun : Array Nat := #[]

/-- Making values, unless the document is at fault. -/
abbrev Build := StateT Builder (Except Fault)

namespace Builder

/-- The document is at fault. -/
def malformed {α : Type} : Build α := throw .malformed

/-- The node with the given number. -/
def nodeAt (i : Nat) : Build Node := return (← get).nodes.getD i (.scalar .null "")

/-- The tag of a node. -/
def tagAt (i : Nat) : Build Tag := do
  match ← nodeAt i with
  | .scalar t _ | .sequence t _ | .mapping t _ => return t

/-- Change a node. -/
def change (i : Nat) (n : Node) : Build Unit :=
  modify fun b => { b with nodes := b.nodes.setIfInBounds i n }

/-- The text of a node that should be a scalar: a mapping may hold it as its default value. -/
def textOf (fuel : Nat) (i : Nat) : Build String := do
  match ← nodeAt i with
  | .scalar _ s => return s
  | .sequence .. => malformed
  | .mapping _ entries => match fuel with
    | 0 => malformed
    | fuel + 1 => do
      match ← entries.findM? fun e => return (← tagAt e.1) == .value with
      | some e => textOf fuel e.2
      | none => malformed

/-- What a collection with the given tag holds at first. -/
def emptyOf? : Tag → Option Content
  | .sequence => some (.list [])
  | .pairs => some (.pairs [])
  | .set => some (.set [])
  | .mapping => some (.map [])
  | _ => none

/-- A scalar's value as something that can be a key. -/
def ofScalar (i : Nat) (tag : Tag) (s : String) (v : Value) : Made :=
  match v with
  | .float x =>
    if x.isNaN then .nan (if tag == .float && isSharedNan s then 0 else i + 1) else .atom v
  | v => .atom v

/-- Make the value of a node: a scalar at once, a collection to be filled later. A node is made
once. -/
def make (i : Nat) : Build Made := do
  let b ← get
  match b.made.getD i none with
  | some m => return m
  | none => do
    let tag ← tagAt i
    let m ← if tag.isScalar then do
        let s ← textOf b.nodes.size i
        pure (ofScalar i tag s (← scalarOf tag s))
      else match emptyOf? tag with
        | some content => do
          set { b with contents := b.contents.push content, begun := b.begun.push i }
          pure (.collection b.contents.size)
        | none => malformed
    modify fun b => { b with made := b.made.setIfInBounds i (some m) }
    return m

/-- The entries of a mapping with those of the merged mappings before its own; the default value
key becomes an ordinary text. The node keeps them so. -/
def flatten (fuel : Nat) (i : Nat) : Build Unit :=
  match fuel with
  | 0 => malformed
  | fuel + 1 => do
    match ← nodeAt i with
    | .mapping tag entries => do
      -- a merge key is taken out before what it names is looked at
      let (merged, own) ← entries.foldlM (fun (merged, own) e => do
        let key ← tagAt e.1
        if key == .merge then
          match ← nodeAt i with
          | .mapping tag now => change i (.mapping tag (now.filter (· != e)))
          | _ => pure ()
          match ← nodeAt e.2 with
          | .mapping .. => do
            flatten fuel e.2
            match ← nodeAt e.2 with
            | .mapping _ es => return (merged ++ es, own)
            | _ => return (merged, own)
          | .sequence _ items => do
            let parts ← items.mapM fun j => do
              match ← nodeAt j with
              | .mapping .. => do
                flatten fuel j
                match ← nodeAt j with
                | .mapping _ es => return es
                | _ => return []
              | _ => malformed
            return (merged ++ parts.reverse.flatten, own)
          | .scalar .. => malformed
        else
          if key == .value then
            match ← nodeAt e.1 with
            | .scalar _ s => change e.1 (.scalar .text s)
            | .sequence _ items => change e.1 (.sequence .text items)
            | .mapping _ es => change e.1 (.mapping .text es)
          return (merged, own ++ [e])) (([] : List (Nat × Nat)), ([] : List (Nat × Nat)))
      change i (.mapping tag (merged ++ own))
    | _ => malformed

/-- Are two things one key? -/
def sameKey : Made → Made → Bool
  | .atom v, .atom w => Value.same v w
  | .nan a, .nan b => a == b
  | _, _ => false

/-- Set the value under a key, at its old place or else at the end. -/
def put (k v : Made) : List (Made × Made) → List (Made × Made)
  | [] => [(k, v)]
  | (k', v') :: rest => if sameKey k k' then (k', v) :: rest else (k', v') :: put k v rest

/-- The entries of a mapping. -/
def entriesOf (i : Nat) : Build (List (Made × Made)) := do
  match ← nodeAt i with
  | .mapping .. => flatten ((← get).nodes.size + 1) i
  | _ => malformed
  match ← nodeAt i with
  | .mapping _ entries =>
    entries.foldlM (fun es e => do
      match ← make e.1 with
      | .collection _ => malformed
      | k => return put k (← make e.2) es) []
  | _ => malformed

/-- Fill a collection. -/
def contentOf (i : Nat) : Build Content := do
  match ← tagAt i, ← nodeAt i with
  | .sequence, .sequence _ items => return .list (← items.mapM make)
  | .pairs, .sequence _ items => do
    let pairs ← items.mapM fun j => do
      match ← nodeAt j with
      | .mapping _ [(k, v)] => return (← make k, ← make v)
      | _ => malformed
    return .pairs pairs
  | .mapping, _ => return .map (← entriesOf i)
  | .set, _ => return .set ((← entriesOf i).map (·.1))
  | _, _ => malformed

/-- Fill the collections from the given one on. Every node begins at most one. -/
def fill (fuel : Nat) (object : Nat) : Build Unit :=
  match fuel with
  | 0 => return
  | fuel + 1 => do
    match (← get).begun[object]? with
    | none => return
    | some i => do
      let content ← contentOf i
      modify fun b => { b with contents := b.contents.setIfInBounds object content }
      fill fuel (object + 1)

/-- What a document makes. -/
def run (t : Tree) : Except Fault (Made × Array Content) := do
  let start : Builder := { nodes := t.nodes, made := Array.replicate t.nodes.size none }
  let (m, b) ← (do
    let m ← make t.root
    fill (t.nodes.size + 1) 0
    return m : Build Made).run start
  return (m, b.contents)

end Builder

/-! The value of what was made -/

/-- The values of collections found so far; only those are kept that hold no mark for what is
around them. -/
abbrev Known := StateM (Array (Option Value))

/-- A value, and how many levels around it its marks reach. -/
abbrev Reaching := Value × Nat

/-- The reach of what holds the given ones. -/
def reachOf (rs : List Reaching) : Nat := (rs.map (·.2)).foldl max 0 - 1

/-- The value of what was made; `path` holds the collections around it, the nearest first. -/
def valueOf (contents : Array Content) (fuel : Nat) (path : List Nat) (m : Made) : Known Reaching :=
  match fuel with
  | 0 => return (.null, 0)
  | fuel + 1 => do
    match m with
    | .atom v => return (v, 0)
    | .nan _ => return (.float (0.0 / 0.0), 0)
    | .collection i => do
      let content := contents.getD i (.list [])
      match path.idxOf? i, (← get).getD i none with
      | some level, _ =>
        let isMap := match content with
          | .map _ => true
          | _ => false
        return (.again level isMap, level + 1)
      | none, some v => return (v, 0)
      | none, none => do
        let inner := i :: path
        let (v, reach) ← match content with
          | .list items => do
            let rs ← items.mapM (valueOf contents fuel inner)
            pure (Value.list (rs.map (·.1)), reachOf rs)
          | .set members => do
            let rs ← members.mapM (valueOf contents fuel inner)
            pure (Value.set (rs.map (·.1)), reachOf rs)
          | .pairs items => do
            -- a pair is a level of its own
            let rs ← items.mapM fun p => do
              let k ← valueOf contents fuel (contents.size :: inner) p.1
              let v ← valueOf contents fuel (contents.size :: inner) p.2
              return (Value.tuple [k.1, v.1], reachOf [k, v])
            pure (Value.list (rs.map (·.1)), reachOf rs)
          | .map entries => do
            let rs ← entries.mapM fun e => do
              let k ← valueOf contents fuel inner e.1
              return (k.1, ← valueOf contents fuel inner e.2)
            pure (Value.map (rs.map fun r => (r.1, r.2.1)), reachOf (rs.map (·.2)))
        if reach = 0 then modify fun known => known.setIfInBounds i (some v)
        return (v, reach)

/-- The value that a text writes; a text without a document writes nothing. -/
def load (text : List Char) : Except Fault Value := do
  match ← Tree.ofText? text with
  | none => return .null
  | some t => do
    let (m, contents) ← Builder.run t
    let start : Array (Option Value) := Array.replicate contents.size none
    return ((valueOf contents (contents.size + 2) [] m).run start).1.1

end MergeGate.Yaml
