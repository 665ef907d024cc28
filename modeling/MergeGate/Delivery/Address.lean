/-
The address to which a status is sent: the receiver's base address with one more segment. Query and
fragment of the base are dropped, and with them its last segment unless a slash ends it; empty
segments and dots are resolved. The scheme is written in lower case.
-/
import MergeGate.Text.Blank

namespace MergeGate.Delivery.Address

/-- The parts of a base address. -/
structure Base where
  scheme : List Char := []
  host : List Char := []
  path : List Char := []
  deriving DecidableEq, Repr

/-- The schemes under which a segment can be added; none is one of them. -/
def hierarchical : List String :=
  ["", "ftp", "http", "gopher", "nntp", "imap", "wais", "file", "https", "shttp", "mms",
    "prospero", "rtsp", "rtspu", "sftp", "svn", "svn+ssh", "ws", "wss"]

/-- The schemes under which the last segment of a path may have parameters behind a semicolon. -/
def parametric : List String :=
  ["", "ftp", "hdl", "prospero", "http", "imap", "https", "shttp", "rtsp", "rtspu", "sip", "sips",
    "mms", "sftp", "tel"]

/-- A path without the parameters of its last segment. -/
def withoutParameters (path : List Char) : List Char :=
  let last := (path.reverse.takeWhile (· != '/')).reverse
  path.take (path.length - last.length) ++ last.takeWhile (· != ';')

/-- May the character stand in a scheme? -/
def isSchemeChar (c : Char) : Bool := c.isAlphanum || c == '+' || c == '-' || c == '.'

/-- The scheme before the first colon, in lower case, and the rest. -/
def splitScheme (cs : List Char) : List Char × List Char :=
  let before := cs.takeWhile (· != ':')
  match before, cs.dropWhile (· != ':') with
  | first :: _, ':' :: rest =>
    if first.isAlpha && before.all isSchemeChar then (before.map Char.toLower, rest) else ([], cs)
  | _, _ => ([], cs)

/-- Does the character end the host? -/
def endsHost (c : Char) : Bool := c == '/' || c == '?' || c == '#'

/-- The host after two slashes, and the rest. -/
def splitHost : List Char → List Char × List Char
  | '/' :: '/' :: rest => (rest.takeWhile (!endsHost ·), rest.dropWhile (!endsHost ·))
  | cs => ([], cs)

/-- Is it a control character of ASCII, or a space? -/
def isControl (c : Char) : Bool := decide (c.toNat ≤ 32)

/-- The parts of a base address. -/
def Base.ofText (cs : List Char) : Base :=
  let cs := (cs.dropWhile isControl).filter fun c => c != '\t' && c != '\r' && c != '\n'
  let (scheme, rest) := splitScheme cs
  let (host, rest) := splitHost rest
  let path := rest.takeWhile fun c => c != '#' && c != '?'
  { scheme, host
    path := if parametric.contains (String.ofList scheme) then withoutParameters path else path }

/-- Take one more segment; two dots take the last one back. -/
def addSegment (segments : List (List Char)) (s : List Char) : List (List Char) :=
  if s = ['.', '.'] then segments.dropLast
  else if s = ['.'] then segments
  else segments ++ [s]

/-- The path with one more segment. -/
def extend (path segment : List Char) : List Char :=
  let all := Text.parts '/' path
  let kept := if all.getLast? = some [] then all else all.dropLast
  let segments := match kept with
    | [] => [segment]
    | first :: rest => first :: rest.filter (!·.isEmpty) ++ [segment]
  ['/'].intercalate (segments.foldl addSegment [])

/-- The whole address with one more segment; under a scheme that has no segments it is the segment
alone. -/
def Base.join (b : Base) (segment : List Char) : List Char :=
  if !hierarchical.contains (String.ofList b.scheme) then segment
  else
    let path := extend b.path segment
    let bare := b.host.isEmpty && b.scheme.isEmpty && path.take 2 != ['/', '/']
    let path :=
      if bare then path
      else
        let path := if path.head? = some '/' then path else '/' :: path
        ['/', '/'] ++ b.host ++ path
    if b.scheme.isEmpty then path else b.scheme ++ ':' :: path

/-- Does an address say how to reach it: is there a colon before any slash, and not in front? -/
def isReachable (cs : List Char) : Bool :=
  match cs.takeWhile (fun c => c != '/' && c != ':'), cs.dropWhile (fun c => c != '/' && c != ':') with
  | _ :: _, ':' :: _ => true
  | _, _ => false

end MergeGate.Delivery.Address
