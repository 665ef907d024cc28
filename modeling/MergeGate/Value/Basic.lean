/-
Dynamic values: what a workflow document, a matrix axis or a status report may hold before it is
checked. A map keeps its entries in the order in which they were written and may have keys of any
kind.
-/
import MergeGate.Decimal.Shortest

namespace MergeGate

/-- A point in time as a document writes it; `offset` counts seconds east of UTC. -/
structure Moment where
  year : Nat
  month : Nat
  day : Nat
  hour : Nat
  minute : Nat
  second : Nat
  micro : Nat
  offset : Option Int

/-- A dynamic value. -/
inductive Value where
  | null
  | bool (b : Bool)
  | int (n : Int)
  | float (x : Float)
  | text (s : String)
  | bytes (bs : List UInt8)
  | date (year month day : Nat)
  | moment (m : Moment)
  | list (items : List Value)
  | tuple (items : List Value)
  | set (items : List Value)
  | map (entries : List (Value × Value))
  /-- the list or map around this place once more, so many levels further out than the next one -/
  | again (level : Nat) (isMap : Bool)
  deriving Inhabited

namespace Value

/-- The name of a value's kind, as messages give it. -/
def kindName : Value → String
  | null => "NoneType"
  | bool _ => "bool"
  | int _ => "int"
  | float _ => "float"
  | text _ => "str"
  | bytes _ => "bytes"
  | date .. => "date"
  | moment _ => "datetime"
  | list _ => "list"
  | tuple _ => "tuple"
  | set _ => "set"
  | map _ => "dict"
  | again _ isMap => if isMap then "dict" else "list"

/-- The full name of a value's kind, as messages about what cannot be done with it give it. -/
def fullKindName : Value → String
  | date .. => "datetime.date"
  | moment _ => "datetime.datetime"
  | v => v.kindName

/-- Does the value count as true? Zero, nothing and everything empty do not. -/
def truthy : Value → Bool
  | null => false
  | bool b => b
  | int n => n != 0
  | float x => !(x == 0.0)
  | text s => s != ""
  | bytes bs => !bs.isEmpty
  | date .. => true
  | moment _ => true
  | list items => !items.isEmpty
  | tuple items => !items.isEmpty
  | set items => !items.isEmpty
  | map entries => !entries.isEmpty
  | again .. => true

/-- A text, number or truth value: what may stand on a matrix axis. -/
def isScalar : Value → Bool
  | bool _ | int _ | float _ | text _ => true
  | _ => false

/-- The text of a text value. -/
def text? : Value → Option String
  | text s => some s
  | _ => none

/-- A number's exact value as a fraction, when it is a finite number or a truth value. -/
def fraction? : Value → Option (Int × Nat)
  | bool b => some (if b then 1 else 0, 1)
  | int n => some (n, 1)
  | float x => match Decimal.Shape.ofFloat x with
    | .zero _ => some (0, 1)
    | .finite negative b =>
      let (n, d) := Decimal.scaled b.m 2 b.q
      some (if negative then -(n : Int) else n, d)
    | _ => none
  | _ => none

/-- Equality of values that are neither sequences nor maps. Numbers and truth values are equal
when they stand for the same number, whatever their kinds. -/
def sameAtom (a b : Value) : Bool :=
  match a, b with
  | null, null => true
  | text s, text t => s == t
  | bytes s, bytes t => s == t
  | date y m d, date y' m' d' => y == y' && m == m' && d == d'
  | moment m, moment m' =>
    m.year == m'.year && m.month == m'.month && m.day == m'.day && m.hour == m'.hour &&
      m.minute == m'.minute && m.second == m'.second && m.micro == m'.micro &&
      m.offset == m'.offset
  | float x, float y => x == y
  | a, b => match a.fraction?, b.fraction? with
    | some (n, d), some (n', d') => n * d' == n' * d
    | _, _ => false

mutual

/-- Equality of values: sequences of one kind item by item, maps entry by entry in any order. -/
def same : Value → Value → Bool
  | list xs, b => match b with
    | list ys => sameAll xs ys
    | _ => false
  | tuple xs, b => match b with
    | tuple ys => sameAll xs ys
    | _ => false
  | set xs, b => match b with
    | set ys => xs.length == ys.length && sameMembers xs ys
    | _ => false
  | map es, b => match b with
    | map fs => es.length == fs.length && sameIn es fs
    | _ => false
  | again n m, b => match b with
    | again n' m' => n == n' && m == m'
    | _ => false
  | null, b => sameAtom null b
  | bool x, b => sameAtom (bool x) b
  | int n, b => sameAtom (int n) b
  | float x, b => sameAtom (float x) b
  | text s, b => sameAtom (text s) b
  | bytes s, b => sameAtom (bytes s) b
  | date y m d, b => sameAtom (date y m d) b
  | moment m, b => sameAtom (moment m) b

/-- Item by item equality. -/
def sameAll : List Value → List Value → Bool
  | [], ys => ys.isEmpty
  | x :: xs, ys => match ys with
    | [] => false
    | y :: ys => same x y && sameAll xs ys

/-- Does every member of the first set stand in the second? -/
def sameMembers : List Value → List Value → Bool
  | [], _ => true
  | x :: xs, ys => (ys.any fun y => same x y) && sameMembers xs ys

/-- Does every entry of the first map stand in the second? -/
def sameIn : List (Value × Value) → List (Value × Value) → Bool
  | [], _ => true
  | (k, v) :: es, fs => (fs.any fun f => same k f.1 && same v f.2) && sameIn es fs

end

/-- The value under a key of a map's entries. -/
def lookup? (key : Value) (entries : List (Value × Value)) : Option Value :=
  (entries.find? fun e => same e.1 key).map (·.2)

/-- The value under a text key. -/
def field? (key : String) (entries : List (Value × Value)) : Option Value :=
  (entries.find? fun e => match e.1 with
    | text s => s == key
    | _ => false).map (·.2)

/-- Set the value under a key, at its old place or else at the end. -/
def putEntry (key value : Value) : List (Value × Value) → List (Value × Value)
  | [] => [(key, value)]
  | (k, v) :: rest => if same k key then (k, value) :: rest else (k, v) :: putEntry key value rest

/-- Entries in which equal keys are joined: the last value at the first place. -/
def joinEntries (entries : List (Value × Value)) : List (Value × Value) :=
  entries.foldl (fun m e => putEntry e.1 e.2 m) []

mutual

/-- Why the value cannot be the key of a map: lists, sets and maps cannot, nor can a tuple that holds
one. -/
def noKey? : Value → Option Value
  | list items => some (list items)
  | set items => some (set items)
  | map entries => some (map entries)
  | again n isMap => some (again n isMap)
  | tuple items => noKeyIn? items
  | _ => none

/-- The first value that cannot be a key. -/
def noKeyIn? : List Value → Option Value
  | [] => none
  | v :: rest => (noKey? v).or (noKeyIn? rest)

end

mutual

/-- Put a value in the place of every mark that stands for it; `level` counts the lists and maps
between the value and this place. -/
def insert (whole : Value) (level : Nat) : Value → Value
  | again n isMap => if n = level then whole else again n isMap
  | list items => list (insertAll whole (level + 1) items)
  | tuple items => tuple (insertAll whole (level + 1) items)
  | set items => set (insertAll whole (level + 1) items)
  | map entries => map (insertEntries whole (level + 1) entries)
  | v => v

/-- Put a value into every item. -/
def insertAll (whole : Value) (level : Nat) : List Value → List Value
  | [] => []
  | v :: rest => insert whole level v :: insertAll whole level rest

/-- Put a value into the value of every entry. -/
def insertEntries (whole : Value) (level : Nat) : List (Value × Value) → List (Value × Value)
  | [] => []
  | (k, v) :: rest => (k, insert whole level v) :: insertEntries whole level rest

end

mutual

/-- Does the value hold a mark for something around it? -/
def hasMark : Value → Bool
  | again .. => true
  | list items => anyMark items
  | tuple items => anyMark items
  | set items => anyMark items
  | map entries => anyMarkIn entries
  | _ => false

/-- Does an item hold a mark? -/
def anyMark : List Value → Bool
  | [] => false
  | v :: rest => hasMark v || anyMark rest

/-- Does the value of an entry hold a mark? -/
def anyMarkIn : List (Value × Value) → Bool
  | [] => false
  | (_, v) :: rest => hasMark v || anyMarkIn rest

end

/-- The items of a sequence, each of them whole: a mark for the sequence is the sequence again. -/
def itemsOf (v : Value) : List Value :=
  let open? (items : List Value) := if anyMark items then insertAll v 0 items else items
  match v with
  | list items | tuple items | set items => open? items
  | _ => []

/-- The entries of a map, each of them whole. -/
def entriesOf (v : Value) : List (Value × Value) :=
  match v with
  | map entries => if anyMarkIn entries then insertEntries v 0 entries else entries
  | _ => []

/-- A map with text keys. -/
def ofFields (fields : List (String × Value)) : Value := map (fields.map fun f => (text f.1, f.2))

/-- A list of texts. -/
def texts (xs : List String) : Value := list (xs.map text)

/-- A text, or null. -/
def ofText? : Option String → Value
  | none => null
  | some s => text s

end Value

end MergeGate
