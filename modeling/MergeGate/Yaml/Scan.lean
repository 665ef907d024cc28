/-
The tokens of a YAML text. Block collections are found by indentation: a column further right than
the current one opens a collection, and a column further left closes those it leaves. A scalar,
alias or collection may turn out to be a key only when a colon follows it on the same line; until
then its place is remembered, and the key token is put there afterwards. Tokens are read when they
are asked for, so a fault far on in the text is found only by who reads that far.
-/
import MergeGate.Yaml.Scalar
import MergeGate.Yaml.Token

namespace MergeGate.Yaml

/-- The place of something that may turn out to be a key. -/
structure MaybeKey where
  /-- the number of tokens before it -/
  position : Nat
  /-- must it be a key, because it begins a line of a block mapping? -/
  required : Bool
  index : Nat
  line : Nat
  column : Nat

/-- The scanner's state. -/
structure Scanner where
  cursor : Cursor
  /-- the tokens read so far -/
  tokens : Array Token := #[]
  /-- how many of them have been taken -/
  taken : Nat := 0
  /-- has the end of the text been reached? -/
  atEnd : Bool := false
  flowLevel : Nat := 0
  /-- the column of the current block collection, `-1` outside all -/
  indent : Int := -1
  indents : List Int := []
  /-- may a key begin here? -/
  keyAllowed : Bool := true
  /-- at most one possible key for each level of flow collections -/
  maybeKeys : List (Nat × MaybeKey) := []

/-- How scanning goes on. -/
abbrev Scanned := Except Fault Scanner

namespace Scanner

/-- Add a token. -/
def push (s : Scanner) (t : Token) : Scanner := { s with tokens := s.tokens.push t }

/-- Put a token at an earlier position. -/
def putAt (s : Scanner) (position : Nat) (t : Token) : Scanner :=
  { s with tokens := s.tokens.insertIdxIfInBounds position t }

/-- Is the place inside a flow collection? -/
def inFlow (s : Scanner) : Bool := s.flowLevel != 0

/-- The current column. -/
def column (s : Scanner) : Int := s.cursor.column

/-- Go to the next token, past blanks, comments and line breaks. -/
def toNextToken : Nat → Scanner → Scanner
  | 0, s => s
  | fuel + 1, s =>
    let c := s.cursor.skipBlanks.skipComment
    match c.lineBreak? with
    | some (_, c) => toNextToken fuel { s with cursor := c, keyAllowed := s.keyAllowed || !s.inFlow }
    | none => { s with cursor := c }

/-- Can the thing no longer be a key? -/
def isStale (c : Cursor) (k : MaybeKey) : Bool := k.line != c.line || decide (1024 < c.index - k.index)

/-- Forget what can no longer be a key; what had to be one is a fault. -/
def dropStale (s : Scanner) : Scanned :=
  let stale := s.maybeKeys.filter fun k => isStale s.cursor k.2
  if stale.any fun k => k.2.required then .error .malformed
  else .ok { s with maybeKeys := s.maybeKeys.filter fun k => !isStale s.cursor k.2 }

/-- The possible key at the current level. -/
def maybeKey? (s : Scanner) : Option MaybeKey := s.maybeKeys.lookup s.flowLevel

/-- Forget the possible key at the current level. -/
def forgetKey (s : Scanner) : Scanner :=
  { s with maybeKeys := s.maybeKeys.filter fun k => k.1 != s.flowLevel }

/-- What might have been a key is none. -/
def removeKey (s : Scanner) : Scanned :=
  match s.maybeKey? with
  | none => .ok s
  | some k => if k.required then .error .malformed else .ok s.forgetKey

/-- What begins here may be a key. -/
def saveKey (s : Scanner) : Scanned :=
  if s.keyAllowed then do
    let s ← s.removeKey
    let k : MaybeKey :=
      { position := s.tokens.size
        required := !s.inFlow && s.indent == s.column
        index := s.cursor.index, line := s.cursor.line, column := s.cursor.column }
    return { s with maybeKeys := s.maybeKeys ++ [(s.flowLevel, k)] }
  else .ok s

/-- Close block collections that lie right of the column. -/
def unwindFrom (column : Int) : List Int → Scanner → Scanner
  | [], s => s
  | outer :: rest, s =>
    if column < s.indent then
      unwindFrom column rest { s.push .blockEnd with indent := outer, indents := rest }
    else s

/-- Close block collections that lie right of the column; inside flow collections columns do not
matter. -/
def unwind (s : Scanner) (column : Int) : Scanner :=
  if s.inFlow then s else unwindFrom column s.indents s

/-- Open a block collection at the column, if it lies right of the current one. -/
def addIndent (s : Scanner) (column : Int) : Bool × Scanner :=
  if s.indent < column then (true, { s with indents := s.indent :: s.indents, indent := column })
  else (false, s)

/-- Open a block collection at the current column, where a key may begin. -/
def openBlock (s : Scanner) (t : Token) : Scanned :=
  if s.inFlow then .ok s
  else if !s.keyAllowed then .error .malformed
  else
    let (opened, s) := s.addIndent s.column
    .ok (if opened then s.push t else s)

/-- Past some characters. -/
def forward (s : Scanner) (n : Nat) : Scanner := { s with cursor := s.cursor.forward n }

/-! One reader per kind of token -/

/-- Leave all block collections before a directive, a document marker or the end. -/
def leaveAll (s : Scanner) : Scanned := do
  let s ← (s.unwind (-1)).removeKey
  return { s with keyAllowed := false }

/-- A run of digits as a number. -/
def readNumber (c : Cursor) : Read (Nat × Cursor) :=
  let (ds, c) := c.takeWhile Char.isDigit
  if ds.isEmpty then .error .malformed
  else .ok (ds.foldl (fun n d => 10 * n + (d.toNat - 48)) 0, c)

/-- The characters of a tag besides letters and digits. -/
def isUriMark (c : Char) : Bool := "-;/?:@&=+$,_.!~*'()[]%".toList.contains c

/-- Bytes given by percent signs and two hexadecimal digits each. -/
def readUriBytes : Nat → Cursor → Read (List UInt8 × Cursor)
  | 0, c => .ok ([], c)
  | fuel + 1, c =>
    if c.peek != '%' then .ok ([], c)
    else match hexDigit? (c.peekAt 1), hexDigit? (c.peekAt 2) with
      | some a, some b => do
        let (bs, c) ← readUriBytes fuel (c.forward 3)
        return (UInt8.ofNat (16 * a + b) :: bs, c)
      | _, _ => .error .malformed

/-- The text of a tag. -/
def readUri : Nat → Cursor → Read (List Char × Cursor)
  | 0, c => .ok ([], c)
  | fuel + 1, c => do
    let (run, c) := c.takeWhile fun ch => ch != '%' && (ch.isAlphanum || isUriMark ch)
    if c.peek == '%' then
      let (bs, c) ← readUriBytes (c.rest.length + 1) c
      match String.fromUTF8? ⟨bs.toArray⟩ with
      | none => .error .malformed
      | some t =>
        let (more, c) ← readUri fuel c
        return (run ++ t.toList ++ more, c)
    else return (run, c)

/-- The text of a tag, which is not empty. -/
def readSomeUri (c : Cursor) : Read (String × Cursor) := do
  let (cs, c) ← readUri (c.rest.length + 1) c
  if cs.isEmpty then .error .malformed else return (String.ofList cs, c)

/-- A tag handle: an exclamation mark, or a name between two. -/
def readHandle (c : Cursor) : Read (String × Cursor) :=
  if c.peek != '!' then .error .malformed
  else if c.peekAt 1 == ' ' then .ok ("!", c.step)
  else
    let (name, c) := c.step.takeWhile isWord
    if c.peek != '!' then .error .malformed
    else .ok (String.ofList ('!' :: name ++ ['!']), c.step)

/-- A directive, up to the end of its line. -/
def readDirective (c : Cursor) : Read (Token × Cursor) := do
  let (name, c) := c.step.takeWhile isWord
  if name.isEmpty || !isGap c.peek then .error .malformed
  let (t, c) ←
    if name == ['Y', 'A', 'M', 'L'] then do
      let (major, c) ← readNumber c.skipBlanks
      if c.peek != '.' then .error .malformed
      let (minor, c) ← readNumber c.step
      if !isGap c.peek then .error .malformed
      pure (Token.version major minor, c)
    else if name == ['T', 'A', 'G'] then do
      let (handle, c) ← readHandle c.skipBlanks
      if c.peek != ' ' then .error .malformed
      let (expansion, c) ← readSomeUri c.skipBlanks
      if !isGap c.peek then .error .malformed
      pure (Token.tagHandle handle expansion, c)
    else pure (Token.directive, c.skipWhile fun ch => !isBreakEnd ch)
  let c ← readIgnored c
  return (t, c)

/-- The name of an anchor or alias, after its indicator. -/
def readName (c : Cursor) : Read (String × Cursor) :=
  let (name, c) := c.step.takeWhile isWord
  let ch := c.peek
  if name.isEmpty then .error .malformed
  else if isSpaceEnd ch || ch == '?' || ch == ':' || ch == ',' || ch == ']' || ch == '\x7d' ||
      ch == '%' || ch == '@' || ch == '\x60' then .ok (String.ofList name, c)
  else .error .malformed

/-- A tag. -/
def readTag (c : Cursor) : Read (Token × Cursor) := do
  let next := c.peekAt 1
  let (t, c) ←
    if next == '<' then do
      let (suffix, c) ← readSomeUri (c.forward 2)
      if c.peek != '>' then .error .malformed
      pure (Token.tag none suffix, c.step)
    else if isSpaceEnd next then pure (Token.tag none "!", c.step)
    else do
      let word := c.step.rest.takeWhile fun ch => !isGap ch
      let (handle, c) ← if word.contains '!' then readHandle c else pure ("!", c.step)
      let (suffix, c) ← readSomeUri c
      pure (Token.tag (some handle) suffix, c)
  if isGap c.peek then return (t, c) else .error .malformed

/-- Something that may be a key. -/
def keyable (s : Scanner) (read : Cursor → Read (Token × Cursor)) : Scanned := do
  let s ← s.saveKey
  let (t, c) ← read s.cursor
  return { s.push t with keyAllowed := false, cursor := c }

/-- The start of a flow collection. -/
def flowStart (s : Scanner) (t : Token) : Scanned := do
  let s ← s.saveKey
  return { (s.forward 1).push t with flowLevel := s.flowLevel + 1, keyAllowed := true }

/-- The end of a flow collection. -/
def flowEnd (s : Scanner) (t : Token) : Scanned := do
  let s ← s.removeKey
  if !s.inFlow then .error .malformed
  else return { (s.forward 1).push t with flowLevel := s.flowLevel - 1, keyAllowed := false }

/-- A comma of a flow collection. -/
def flowEntry (s : Scanner) : Scanned := do
  let s ← { s with keyAllowed := true }.removeKey
  return (s.forward 1).push .flowEntry

/-- The dash of a block sequence's item. -/
def blockEntry (s : Scanner) : Scanned := do
  let s ← s.openBlock .blockSequenceStart
  let s ← { s with keyAllowed := true }.removeKey
  return (s.forward 1).push .blockEntry

/-- The question mark of a mapping's key. -/
def keyMark (s : Scanner) : Scanned := do
  let s ← s.openBlock .blockMappingStart
  let s ← { s with keyAllowed := !s.inFlow }.removeKey
  return (s.forward 1).push .key

/-- The colon of a mapping's value: what stands before it on the line was a key. -/
def valueMark (s : Scanner) : Scanned :=
  match s.maybeKey? with
  | some k =>
    let s := s.forgetKey.putAt k.position .key
    let (opened, s) := if s.inFlow then (false, s) else s.addIndent k.column
    let s := if opened then s.putAt k.position .blockMappingStart else s
    .ok (({ s with keyAllowed := false }.forward 1).push .value)
  | none => do
    let s ← s.openBlock .blockMappingStart
    let s ← { s with keyAllowed := !s.inFlow }.removeKey
    return (s.forward 1).push .value

/-- A block scalar. -/
def blockScalar (s : Scanner) (folded : Bool) : Scanned := do
  let s ← { s with keyAllowed := true }.removeKey
  let (text, c) ← readBlock folded s.indent s.cursor
  return { s.push (.scalar text false) with cursor := c }

/-- A plain scalar. -/
def plainScalar (s : Scanner) : Scanned := do
  let s ← s.saveKey
  let (text, broken, c) := readPlain s.inFlow s.indent s.cursor
  return { s.push (.scalar text true) with keyAllowed := broken, cursor := c }

/-- The characters that begin no plain scalar. -/
def isIndicator (c : Char) : Bool :=
  isSpaceEnd c || isFlowMark c || "-?:#&*!|>'\"%@".toList.contains c || c == '\x60'

/-- May a plain scalar begin here? -/
def beginsPlain (s : Scanner) : Bool :=
  let ch := s.cursor.peek
  !isIndicator ch ||
    (!isSpaceEnd (s.cursor.peekAt 1) && (ch == '-' || (!s.inFlow && (ch == '?' || ch == ':'))))

/-- Read the token at the current place. -/
def readToken (s : Scanner) : Scanned :=
  let c := s.cursor
  let ch := c.peek
  let spaced := isSpaceEnd (c.peekAt 1)
  if ch == '%' && c.column == 0 then do
    let s ← s.leaveAll
    let (t, c) ← readDirective s.cursor
    return { s.push t with cursor := c }
  else if c.column == 0 && c.atMarker then do
    let s ← s.leaveAll
    return (s.forward 3).push (if ch == '-' then .documentStart else .documentEnd)
  else if ch == '[' then s.flowStart .flowSequenceStart
  else if ch == '\x7b' then s.flowStart .flowMappingStart
  else if ch == ']' then s.flowEnd .flowSequenceEnd
  else if ch == '\x7d' then s.flowEnd .flowMappingEnd
  else if ch == ',' then s.flowEntry
  else if ch == '-' && spaced then s.blockEntry
  else if ch == '?' && (s.inFlow || spaced) then s.keyMark
  else if ch == ':' && (s.inFlow || spaced) then s.valueMark
  else if ch == '*' then s.keyable fun c => (readName c).map fun r => (.aliased r.1, r.2)
  else if ch == '&' then s.keyable fun c => (readName c).map fun r => (.anchor r.1, r.2)
  else if ch == '!' then s.keyable readTag
  else if ch == '|' && !s.inFlow then s.blockScalar false
  else if ch == '>' && !s.inFlow then s.blockScalar true
  else if ch == '\'' || ch == '"' then
    s.keyable fun c => (readQuoted c).map fun r => (.scalar r.1 false, r.2)
  else if s.beginsPlain then s.plainScalar
  else .error .malformed

/-- Read on: the next token, or the end. -/
def readOn (s : Scanner) : Scanned := do
  let s := toNextToken (s.cursor.rest.length + 1) s
  let s ← s.dropStale
  let s := s.unwind s.column
  if s.cursor.peek == eof then
    let s ← s.leaveAll
    return { s with atEnd := true, maybeKeys := [] }
  else s.readToken

/-- Might the next token to be taken turn out to be a key? -/
def isUndecided (s : Scanner) : Bool := s.maybeKeys.any fun k => k.2.position == s.taken

/-- Read on until the next token is there and it is settled whether it is a key. Each turn takes at
least a character or reaches the end. -/
def ready : Nat → Scanner → Scanned
  | 0, s => .ok s
  | fuel + 1, s =>
    if s.atEnd then .ok s
    else if s.tokens.size ≤ s.taken then do
      let s ← s.readOn
      ready fuel s
    else do
      let s ← s.dropStale
      if s.isUndecided then
        let s ← s.readOn
        ready fuel s
      else return s

/-- The next token, if there is one. -/
def next (s : Scanner) : Except Fault (Option Token × Scanner) := do
  let s ← s.ready (s.cursor.rest.length + 2)
  return (s.tokens[s.taken]?, s)

end Scanner

/-- May the character stand in a YAML text? -/
def isAllowed (c : Char) : Bool :=
  let n := c.toNat
  n == 9 || n == 10 || n == 13 || (32 ≤ n && n ≤ 126) || n == 0x85 || (0xa0 ≤ n && n ≤ 0xd7ff) ||
    (0xe000 ≤ n && n ≤ 0xfffd) || 0x10000 ≤ n

/-- A text about to be read; a mark of the byte order at its start is passed over. -/
def Scanner.ofText (text : List Char) : Scanned :=
  if text.all isAllowed then
    let c : Cursor := { rest := text }
    .ok { cursor := if c.peek.toNat == 0xfeff then c.step else c }
  else .error .malformed

end MergeGate.Yaml
