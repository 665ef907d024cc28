/-
Paths as written: the names between slashes, from the top or from a working folder. Empty names and
single dots say nothing and are left out; two dots stay, since only a walk tells where they lead.
-/
import MergeGate.Text.Blank

namespace MergeGate

/-- A path as written. -/
structure Path where
  /-- does it begin at the top? -/
  rooted : Bool
  names : List String
  deriving DecidableEq, Repr

namespace Path

/-- The path that a text writes. -/
def ofText (s : String) : Path :=
  { rooted := s.toList.head? == some '/'
    names := ((Text.parts '/' s.toList).map String.ofList).filter fun n => n != "" && n != "." }

/-- A path as text; the working folder itself is a dot. -/
def text (p : Path) : String :=
  let names := "/".intercalate p.names
  if p.rooted then "/" ++ names
  else if p.names.isEmpty then "." else names

/-- The path without its last name. -/
def parent (p : Path) : Path := { p with names := p.names.dropLast }

/-- Does a null character stand in the path? No file has such a path. -/
def hasNull (p : Path) : Bool := p.names.any fun n => n.toList.contains (Char.ofNat 0)

/-- The complaint about a null character in a path. -/
def nullMessage : String := "embedded null byte"

/-- The last name. -/
def name (p : Path) : String := p.names.getLast?.getD ""

/-- A name cut before its last dot; a dot at either end cuts nothing. -/
def cut (name : String) : String × String :=
  let cs := name.toList.reverse
  let last := cs.takeWhile (· != '.')
  match cs.dropWhile (· != '.') with
  | '.' :: rest =>
    if last.isEmpty || rest.isEmpty then (name, "")
    else (String.ofList rest.reverse, String.ofList ('.' :: last.reverse))
  | _ => (name, "")

/-- The end of a name from its last dot on. -/
def suffixOf (name : String) : String := (cut name).2

/-- A name without its suffix. -/
def stemOf (name : String) : String := (cut name).1

end Path

end MergeGate
