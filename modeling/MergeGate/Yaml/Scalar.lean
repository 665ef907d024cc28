/-
Scalars of a YAML text: block scalars, which keep or fold their lines; quoted ones, which fold
them; and plain ones, which end where something else begins. Folding joins two lines with a blank,
and keeps the line breaks of empty lines between them. Each reader takes at most as many turns as
characters are left.
-/
import MergeGate.Yaml.Cursor

namespace MergeGate.Yaml

/-- What a reader gives, unless the text is at fault; mostly a value and the place after it. -/
abbrev Read (α : Type) := Except Fault α

/-! Block scalars -/

/-- Blanks up to the column `indent`. -/
def Cursor.skipTo (c : Cursor) (indent : Nat) : Cursor :=
  c.forward (min (c.rest.takeWhile (· == ' ')).length (indent - c.column))

/-- Line breaks, with blanks up to the column `indent` after each. -/
def readBreaks (indent : Nat) : Nat → Cursor → List Char × Cursor
  | 0, c => ([], c.skipTo indent)
  | fuel + 1, c =>
    let c := c.skipTo indent
    match c.lineBreak? with
    | some (b, c) =>
      let (bs, c) := readBreaks indent fuel c
      (b :: bs, c)
    | none => ([], c)

/-- Leading line breaks and blanks of a block scalar, with the greatest column reached by blanks. -/
def readIndentation (greatest : Nat) : Nat → Cursor → List Char × Nat × Cursor
  | 0, c => ([], greatest, c)
  | fuel + 1, c =>
    if c.peek == ' ' then
      let c := c.step
      readIndentation (max greatest c.column) fuel c
    else match c.lineBreak? with
      | some (b, c) =>
        let (bs, greatest, c) := readIndentation greatest fuel c
        (b :: bs, greatest, c)
      | none => ([], greatest, c)

/-- What becomes of the line breaks at the end of a block scalar. -/
inductive Chomping where
  | strip
  | clip
  | keep
  deriving DecidableEq, Repr

/-- The sign that says what becomes of line breaks at the end. -/
def chomping? (c : Char) : Option Chomping :=
  if c = '+' then some .keep else if c = '-' then some .strip else none

/-- The digit that gives the indentation; zero is not allowed. -/
def readIncrement (c : Cursor) : Read (Option Nat × Cursor) :=
  if c.peek.isDigit then
    if c.peek = '0' then .error .malformed else .ok (some (c.peek.toNat - 48), c.step)
  else .ok (none, c)

/-- The signs after the indicator of a block scalar, in either order. -/
def readHeader (c : Cursor) : Read ((Chomping × Option Nat) × Cursor) := do
  let (result, c) ← match chomping? c.peek with
    | some ch => do
      let (increment, c) ← readIncrement c.step
      pure ((ch, increment), c)
    | none => do
      let (increment, c) ← readIncrement c
      match increment, chomping? c.peek with
      | some n, some ch => pure ((ch, some n), c.step)
      | increment, _ => pure ((Chomping.clip, increment), c)
  if isGap c.peek then return (result, c) else .error .malformed

/-- The rest of a line that may hold only a comment. -/
def readIgnored (c : Cursor) : Read Cursor :=
  let c := c.skipBlanks.skipComment
  if isBreakEnd c.peek then .ok ((c.lineBreak?.map (·.2)).getD c) else .error .malformed

/-- Is the place inside a block scalar with the given indentation? -/
def Cursor.inside (c : Cursor) (indent : Nat) : Bool := c.column == indent && c.peek != eof

/-- Blank or tab. -/
def isIndentChar (c : Char) : Bool := c == ' ' || c == '\t'

/-- The lines of a block scalar: their text, the last line break and the line breaks after it. -/
def readBlockLines (folded : Bool) (indent : Nat) :
    Nat → List Char → Cursor → List Char × List Char × List Char × Cursor
  | 0, breaks, c => ([], [], breaks, c)
  | fuel + 1, breaks, c =>
    if !c.inside indent then ([], [], breaks, c)
    else
      let leading := !isIndentChar c.peek
      let (text, c) := c.takeWhile fun ch => !isBreakEnd ch
      let (lineBreak, c) := match c.lineBreak? with
        | some (b, c) => ([b], c)
        | none => ([], c)
      let (next, c) := readBreaks indent c.rest.length c
      if c.inside indent then
        let joint :=
          if folded && lineBreak == ['\n'] && leading && !isIndentChar c.peek then
            if next.isEmpty then [' '] else []
          else lineBreak
        let (more, lineBreak, last, c) := readBlockLines folded indent fuel next c
        (breaks ++ text ++ joint ++ more, lineBreak, last, c)
      else (breaks ++ text, lineBreak, next, c)

/-- A block scalar from its indicator on; `parent` is the indentation around it. -/
def readBlock (folded : Bool) (parent : Int) (c : Cursor) : Read (String × Cursor) := do
  let ((chomping, increment), c) ← readHeader c.step
  let c ← readIgnored c
  let least := (max 1 (parent + 1)).toNat
  let (breaks, indent, c) := match increment with
    | none =>
      let (breaks, greatest, c) := readIndentation 0 c.rest.length c
      (breaks, max least greatest, c)
    | some n =>
      let indent := least + n - 1
      let (breaks, c) := readBreaks indent c.rest.length c
      (breaks, indent, c)
  let (text, lineBreak, last, c) := readBlockLines folded indent (c.rest.length + 1) breaks c
  let ending := match chomping with
    | .strip => []
    | .clip => lineBreak
    | .keep => lineBreak ++ last
  return (String.ofList (text ++ ending), c)

/-! Quoted scalars -/

/-- What a character stands for after a backslash. -/
def escapes : List (Char × Nat) :=
  [('0', 0), ('a', 7), ('b', 8), ('t', 9), ('\t', 9), ('n', 10), ('v', 11), ('f', 12), ('r', 13),
    ('e', 27), (' ', 32), ('"', 34), ('\\', 92), ('/', 47), ('N', 0x85), ('_', 0xa0),
    ('L', 0x2028), ('P', 0x2029)]

/-- The number of hexadecimal digits after an escape that gives a code point. -/
def escapeWidth? (c : Char) : Option Nat :=
  if c = 'x' then some 2 else if c = 'u' then some 4 else if c = 'U' then some 8 else none

/-- The code point given by hexadecimal digits. -/
def readCodePoint (width : Nat) (c : Cursor) : Read (Char × Cursor) := do
  let ds := (c.rest.take width).filterMap hexDigit?
  if ds.length ≠ width then .error .malformed
  else
    let n := ds.foldl (fun n d => 16 * n + d) 0
    if 0x10ffff < n then .error (.badCodePoint n)
    else return (Char.ofNat n, c.forward width)

/-- Line breaks and the blanks before them; a document marker must not stand there. -/
def readFlowBreaks : Nat → Cursor → Read (List Char × Cursor)
  | 0, c => .ok ([], c)
  | fuel + 1, c =>
    if c.atMarker then .error .malformed
    else
      let c := c.skipWhile isIndentChar
      match c.lineBreak? with
      | some (b, c) => do
        let (bs, c) ← readFlowBreaks fuel c
        return (b :: bs, c)
      | none => .ok ([], c)

/-- Does the character end a run of ordinary characters between quotes? -/
def endsRun (c : Char) : Bool := c == '\'' || c == '"' || c == '\\' || isSpaceEnd c

/-- The text between quotes up to a blank or the closing quote. -/
def readQuotedRun (double : Bool) : Nat → Cursor → Read (List Char × Cursor)
  | 0, c => .ok ([], c)
  | fuel + 1, c => do
    let (run, c) := c.takeWhile fun ch => !endsRun ch
    let ch := c.peek
    let proceed (add : List Char) (c : Cursor) : Read (List Char × Cursor) := do
      let (more, c) ← readQuotedRun double fuel c
      return (run ++ add ++ more, c)
    if !double && ch == '\'' && c.peekAt 1 == '\'' then proceed ['\''] (c.forward 2)
    else if (double && ch == '\'') || (!double && (ch == '"' || ch == '\\')) then
      proceed [ch] c.step
    else if double && ch == '\\' then
      let c := c.step
      match escapes.lookup c.peek with
      | some n => proceed [Char.ofNat n] c.step
      | none => match escapeWidth? c.peek with
        | some width => do
          let (ch, c) ← readCodePoint width c.step
          proceed [ch] c
        | none => match c.lineBreak? with
          | some (_, c) => do
            let (bs, c) ← readFlowBreaks (c.rest.length + 1) c
            proceed bs c
          | none => .error .malformed
    else return (run, c)

/-- Blanks between the words of a quoted scalar, line breaks folded. -/
def readQuotedGap (c : Cursor) : Read (List Char × Cursor) := do
  let (blanks, c) := c.takeWhile isIndentChar
  if c.peek == eof then .error .malformed
  else match c.lineBreak? with
    | some (b, c) => do
      let (bs, c) ← readFlowBreaks (c.rest.length + 1) c
      let joint := if b ≠ '\n' then [b] else if bs.isEmpty then [' '] else []
      return (joint ++ bs, c)
    | none => return (blanks, c)

/-- The rest of a quoted scalar after its first run. -/
def readQuotedRest (double : Bool) (quote : Char) : Nat → Cursor → Read (List Char × Cursor)
  | 0, _ => .error .malformed
  | fuel + 1, c =>
    if c.peek == quote then .ok ([], c.step)
    else do
      let (gap, c) ← readQuotedGap c
      let (run, c) ← readQuotedRun double (c.rest.length + 1) c
      let (more, c) ← readQuotedRest double quote fuel c
      return (gap ++ run ++ more, c)

/-- A quoted scalar from its opening quote on. -/
def readQuoted (c : Cursor) : Read (String × Cursor) := do
  let quote := c.peek
  let double := quote == '"'
  let (run, c) ← readQuotedRun double (c.rest.length + 1) c.step
  let (more, c) ← readQuotedRest double quote (c.rest.length + 1) c
  return (String.ofList (run ++ more), c)

/-! Plain scalars -/

/-- Line breaks between the words of a plain scalar; `none` when a document marker follows one. -/
def readPlainBreaks : Nat → Cursor → Option (List Char) × Cursor
  | 0, c => (some [], c)
  | fuel + 1, c =>
    if c.peek == ' ' then readPlainBreaks fuel c.step
    else match c.lineBreak? with
      | some (b, c) =>
        if c.atMarker then (none, c)
        else
          let (bs, c) := readPlainBreaks fuel c
          (bs.map (b :: ·), c)
      | none => (some [], c)

/-- What stands between two words of a plain scalar, and whether a line ended. -/
def readPlainGap (c : Cursor) : List Char × Bool × Cursor :=
  let (blanks, c) := c.takeWhile (· == ' ')
  match c.lineBreak? with
  | none => (blanks, false, c)
  | some (b, c) =>
    if c.atMarker then ([], true, c)
    else match readPlainBreaks c.rest.length c with
      | (none, c) => ([], true, c)
      | (some bs, c) =>
        let joint := if b ≠ '\n' then [b] else if bs.isEmpty then [' '] else []
        (joint ++ bs, true, c)

/-- The flow indicators that end a plain scalar inside a flow collection. -/
def isFlowMark (c : Char) : Bool :=
  c == ',' || c == '[' || c == ']' || c == '\x7b' || c == '\x7d'

/-- Length of the word at the start of a text: up to a gap, a colon with a gap after it, or, in a
flow collection, one of its indicators. -/
def plainLength (flow : Bool) : List Char → Nat
  | [] => 0
  | ch :: rest =>
    let next := rest.headD eof
    if isSpaceEnd ch || (ch == ':' && (isSpaceEnd next || (flow && isFlowMark next))) ||
        (flow && (isFlowMark ch || ch == '?')) then 0
    else plainLength flow rest + 1

/-- Words of a plain scalar; `gap` stands before the next word. Also gives whether the last gap
ended a line, after which a new key may begin. -/
def readPlainWords (flow : Bool) (indent : Int) :
    Nat → List Char → Bool → Cursor → List Char × Bool × Cursor
  | 0, _, broken, c => ([], broken, c)
  | fuel + 1, gap, broken, c =>
    let n := plainLength flow c.rest
    if c.peek == '#' || n == 0 then ([], broken, c)
    else
      let word := gap ++ c.rest.take n
      let (next, broken, c) := readPlainGap (c.forward n)
      if next.isEmpty || c.peek == '#' || (!flow && (c.column : Int) < indent) then
        (word, broken, c)
      else
        let (more, broken, c) := readPlainWords flow indent fuel next broken c
        (word ++ more, broken, c)

/-- A plain scalar; `parent` is the indentation around it. -/
def readPlain (flow : Bool) (parent : Int) (c : Cursor) : String × Bool × Cursor :=
  let (text, broken, c) := readPlainWords flow (parent + 1) (c.rest.length + 1) [] false c
  (String.ofList text, broken, c)

end MergeGate.Yaml
