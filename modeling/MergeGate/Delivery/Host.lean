/-
The host part of an address. Square brackets hold an address of the newer kind, and nothing but a
port may stand outside them; a character that stands for a separator in another form is refused.
-/
import MergeGate.Text.Quoted

namespace MergeGate.Delivery.Host

/-- What is wrong with a host. -/
inductive Flaw where
  /-- a bracket without its partner, or text outside the brackets -/
  | brackets
  | notAddress (text : String)
  | olderKind
  | future
  | lookalike (host : String)
  deriving DecidableEq, Repr

/-- The flaw in words. -/
def Flaw.message : Flaw → String
  | brackets => "Invalid IPv6 URL"
  | notAddress text => Text.quoted text ++ " does not appear to be an IPv4 or IPv6 address"
  | olderKind => "An IPv4 address cannot be in brackets"
  | future => "IPvFuture address is invalid"
  | lookalike host => "netloc '" ++ host ++ "' contains invalid characters under NFKC normalization"

/-- Is it a number up to 255, without leading zeros? -/
def isOctet (cs : List Char) : Bool :=
  !cs.isEmpty && cs.length ≤ 3 && cs.all Char.isDigit && (cs == ['0'] || cs.head? != some '0') &&
    cs.foldl (fun n c => 10 * n + (c.toNat - '0'.toNat)) 0 ≤ 255

/-- Is it an address of the older kind: four numbers with points between them? -/
def isOlder (cs : List Char) : Bool :=
  let parts := Text.parts '.' cs
  parts.length == 4 && parts.all isOctet

/-- Is it one to four hexadecimal digits? -/
def isGroup (cs : List Char) : Bool :=
  !cs.isEmpty && cs.length ≤ 4 &&
    cs.all fun c => c.isDigit || ('a' ≤ c && c ≤ 'f') || ('A' ≤ c && c ≤ 'F')

/-- Groups up to an empty one inside, and after it. An empty group at either end must be part of
the gap. -/
def isGapped (before after : List (List Char)) : Bool :=
  let before? := match before with
    | [] :: rest => if rest.isEmpty then some [] else none
    | groups => some groups
  let after? := match after.reverse with
    | [] :: rest => if rest.isEmpty then some [] else none
    | _ => some after
  match before?, after? with
  | some b, some a => b.length + a.length < 8 && b.all isGroup && a.all isGroup
  | _, _ => false

/-- Are these the groups of an address of the newer kind: eight, or fewer around one gap? -/
def areGroups (groups : List (List Char)) : Bool :=
  let inner := groups.tail.dropLast
  if groups.length < 3 || 9 < groups.length then false
  else if !inner.any List.isEmpty then groups.length == 8 && groups.all isGroup
  else
    let i := inner.findIdx List.isEmpty + 1
    (inner.filter List.isEmpty).length == 1 && isGapped (groups.take i) (groups.drop (i + 1))

/-- Is it an address of the newer kind? Its last two groups may be written in the older way, and a
zone may follow it. -/
def isNewer (cs : List Char) : Bool :=
  let address := cs.takeWhile (· != '%')
  let zoned := match cs.dropWhile (· != '%') with
    | [] => true
    | _ :: zone => !zone.isEmpty && !zone.contains '%'
  let groups := Text.parts ':' address
  let last := groups.getLast?.getD []
  zoned && !address.isEmpty && 3 ≤ groups.length &&
    (if last.contains '.' then isOlder last && areGroups (groups.dropLast ++ [['0'], ['0']])
      else areGroups groups)

/-- Is it an address of a kind yet to come: a version and a point? -/
def isFuture : List Char → Bool
  | 'v' :: rest =>
    let digits := rest.takeWhile fun c => isGroup [c]
    match rest.drop digits.length with
    | '.' :: _ :: _ => !digits.isEmpty
    | _ => false
  | _ => false

/-- What is wrong with a text that should be an address. -/
def addressFlaw? (cs : List Char) : Option Flaw :=
  if cs.head? == some 'v' then if isFuture cs then none else some .future
  else if isOlder cs then some .olderKind
  else if isNewer cs then none
  else some (.notAddress (String.ofList cs))

/-- What is wrong with a host in which both brackets stand. What comes before the last at sign does
not count. -/
def bracketFlaw? (host : List Char) : Option Flaw :=
  let cs := (Text.parts '@' host).getLast?.getD []
  match cs.takeWhile (· != '['), cs.dropWhile (· != '[') with
  | before, _ :: inside =>
    let port := (inside.dropWhile (· != ']')).drop 1
    if !before.isEmpty then some .brackets
    else if !port.isEmpty && port.head? != some ':' then some .brackets
    else addressFlaw? (inside.takeWhile (· != ']'))
  | before, [] => addressFlaw? (before.takeWhile (· != ':'))

/-- The characters that are a separator, or hold one, in another form. -/
def lookalikes : List Nat :=
  [0x2047, 0x2048, 0x2049, 0x2100, 0x2101, 0x2105, 0x2106, 0x2a74, 0xfe13, 0xfe16, 0xfe55, 0xfe56,
    0xfe5f, 0xfe6b, 0xff03, 0xff0f, 0xff1a, 0xff1f, 0xff20]

/-- What is wrong with a host. -/
def flaw? (host : List Char) : Option Flaw :=
  let (opened, closed) := (host.contains '[', host.contains ']')
  if opened != closed then some .brackets
  else (if opened then bracketFlaw? host else none).or
    (if host.any fun c => lookalikes.contains c.toNat then some (.lookalike (String.ofList host))
      else none)

end MergeGate.Delivery.Host
