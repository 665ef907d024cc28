/-
Words expanded: tildes, parameters, the output of commands and the values of expressions are put in
their places, and what comes of it is split into fields and matched against the names of files. The
commands inside words are run by an action that is handed in.
-/
import MergeGate.Shell.Arithmetic
import MergeGate.Shell.Fields
import MergeGate.Shell.Script

namespace MergeGate.Shell.Expansion

open Script

/-- How a word is expanded. -/
structure Mode where
  /-- will it be split into fields? -/
  full : Bool := false
  /-- does a tilde at its start stand for a folder? -/
  tilde : Bool := false
  /-- does a tilde after the first equality sign or a colon, too? -/
  assignment : Bool := false
  quoted : Bool := false
  /-- is it the word of a parameter, of which plain bytes are split as well? -/
  word : Bool := false

/-- Where the walk over a word stands. -/
structure Walk where
  inQuotes : Bool := false
  /-- may a tilde stand for a folder here? -/
  tilde : Bool := false
  /-- has an equality sign come? -/
  afterEquals : Bool := false
  /-- does a run of plain bytes go on? -/
  inRun : Bool := false
  /-- how many parts belong to a tilde -/
  skip : Nat := 0

/-- Add a glyph that stays where it is. -/
def addWhole (g : Glyph) : List Piece → List Piece
  | ⟨gs, .whole⟩ :: rest => ⟨g :: gs, .whole⟩ :: rest
  | ps => ⟨[g], .whole⟩ :: ps

/-- Add a byte of a run that is split. -/
def addRun (inRun : Bool) (g : Glyph) : List Piece → List Piece
  | ⟨gs, .atSeparators⟩ :: rest =>
    if inRun then ⟨g :: gs, .atSeparators⟩ :: rest else ⟨[g], .atSeparators⟩ :: ⟨gs, .atSeparators⟩ :: rest
  | ps => ⟨[g], .atSeparators⟩ :: ps

/-- Add pieces, the glyphs of which are in order. -/
def addPieces (new : List Piece) (ps : List Piece) : List Piece :=
  (new.map fun p => { p with glyphs := p.glyphs.reverse }).reverse ++ ps

/-- The pieces in order, from reversed ones. -/
def inOrder (ps : List Piece) : List Piece :=
  (ps.map fun p => { p with glyphs := p.glyphs.reverse }).reverse

/-- The name between a tilde and the slash, the colon or the end behind it; none if a part of it is
not plain. -/
def tildeName? (colon : Bool) : Word → Option Bytes
  | [] => some []
  | .byte c :: rest =>
    if c == '/' || (colon && c == ':') then some [] else (tildeName? colon rest).map (c :: ·)
  | _ => none

/-- The folder of a user. -/
def folderOf? (i : Interpreter) (user : Bytes) : Option Bytes :=
  if user.isEmpty then i.valueOf? "HOME"
  else if user == "root".toList then some "/root".toList
  else none

/-- Bytes as glyphs. -/
def glyphs (quoted : Bool) (bs : Bytes) : List Glyph :=
  bs.map fun c => if quoted then .quoted c else .plain c

/-- Texts with a glyph between them. -/
def joined (quoted : Bool) (between : List Glyph) (texts : List Bytes) : List Glyph :=
  between.intercalate (texts.map (glyphs quoted))

/-- The parameters together: apart where they will be split, otherwise with the first separator
between them. -/
def allParameters (i : Interpreter) (m : Mode) (at_ : Bool) : List Glyph :=
  let first : List Glyph := match i.separators with
    | none => glyphs m.quoted [' ']
    | some [] => []
    | some (c :: _) => glyphs m.quoted [c]
  let between : List Glyph :=
    if m.full && m.quoted && at_ then [.gap]
    else if m.full && !m.quoted then if i.separators.isSome then [.gap] else [.plain ' ']
    else first
  joined m.quoted between i.parameters

/-- The options, each with its letter. -/
def optionLetters : List (String × Option Char) :=
  [("errexit", some 'e'), ("noglob", some 'f'), ("ignoreeof", some 'I'), ("interactive", some 'i'),
    ("monitor", some 'm'), ("noexec", some 'n'), ("stdin", some 's'), ("xtrace", some 'x'),
    ("verbose", some 'v'), ("vi", some 'V'), ("emacs", some 'E'), ("noclobber", some 'C'),
    ("allexport", some 'a'), ("notify", some 'b'), ("nounset", some 'u'), ("privileged", some 'p'),
    ("nolog", none), ("debug", none)]

/-- The value of a parameter. -/
def parameter? (i : Interpreter) (m : Mode) (name : Bytes) : Option (List Glyph) :=
  let text (bs : Bytes) : Option (List Glyph) := some (glyphs m.quoted bs)
  match name with
  | ['$'] => text (Bytes.ofNat i.root)
  | ['?'] => text (Bytes.ofNat i.status)
  | ['#'] => text (Bytes.ofNat i.parameters.length)
  | ['!'] => i.lastBackground.bind fun n => text (Bytes.ofNat n)
  | ['-'] => text (optionLetters.reverse.filterMap fun o =>
      if i.options.contains o.1 then o.2 else none)
  | ['@'] => some (allParameters i m true)
  | ['*'] => some (allParameters i m false)
  | name =>
    if (name.head?.map isDigitByte).getD false then
      let n := natOfDigits name
      if n = 0 then text i.name else (i.parameters[n - 1]?).bind text
    else (i.value? name).bind text

/-- What a parameter gave, split as it has to be. -/
def recorded (i : Interpreter) (m : Mode) (name : Bytes) (gs : List Glyph) : List Piece :=
  let splitting : Splitting :=
    if !m.quoted then .atSeparators
    else if name == ['@'] && !i.parameters.isEmpty then .atGaps
    else .whole
  [⟨gs, splitting⟩]

/-- A parameter is missing. -/
def missing {α : Type} (name message : Bytes) : Script α :=
  fail (name ++ Bytes.ofLiteral ": " ++ message)

/-- The complaint about a missing parameter. -/
def notSet : String := "parameter not set"

/-- Do assignments one after the other. -/
def assignNumbers : List (Bytes × Int) → Script Unit
  | [] => return
  | (name, n) :: rest => do
    assign name (Bytes.ofInt n) false
    assignNumbers rest

/-- Does nothing after this part of a word count? -/
def endsWord : Part → Bool
  | .parameter _ .followed _ _ => true
  | _ => false

mutual

/-- Walk over the parts of a word; the pieces so far are reversed, and so are their glyphs. -/
def walk (run : Option Tree → Script Bytes) (m : Mode) (w : Walk) (acc : List Piece) :
    List Part → Script (List Piece)
  | [] => return inOrder acc
  | .mark :: .parameter ['@'] .plain nullToo word :: .mark :: rest =>
    if 0 < w.skip then walk run m { w with skip := w.skip - 1 } acc
      (.parameter ['@'] .plain nullToo word :: .mark :: rest)
    else if w.inQuotes then do
      let i ← get
      let new := recorded i m ['@'] (allParameters i m true)
      walk run m { w with tilde := false, inRun := false } (addPieces new acc) (.mark :: rest)
    else do
      let i ← get
      let m' := { m with quoted := true }
      let new := if i.parameters.isEmpty then [] else recorded i m' ['@'] (allParameters i m' true)
      walk run m { w with tilde := false, inRun := false } (addPieces new acc) rest
  | part :: rest =>
    if 0 < w.skip then walk run m { w with skip := w.skip - 1 } acc rest
    else match part with
      | .byte c => do
        let home? : Option (Bytes × Nat) ← if c == '~' && w.tilde then do
            let i ← get
            pure (match tildeName? m.assignment rest with
              | none => none
              | some user => (folderOf? i user).map fun home => (home, user.length))
          else pure none
        match home? with
        | some (home, length) =>
          let acc := home.foldl (fun acc c => addWhole (.quoted c) acc) acc
          walk run m { w with tilde := false, inRun := false, skip := length } acc rest
        | none =>
          let tilde := m.assignment && ((c == '=' && !w.afterEquals) || c == ':')
          let afterEquals := w.afterEquals || c == '='
          let whole := m.quoted || w.inQuotes
          let acc :=
            if whole then addWhole (.quoted c) acc
            else if m.word then addRun w.inRun (.plain c) acc
            else addWhole (.plain c) acc
          walk run m { w with tilde, afterEquals, inRun := !whole } acc rest
      | .quoted c =>
        walk run m { w with tilde := false, inRun := false } (addWhole (.quoted c) acc) rest
      | .mark =>
        walk run m { w with tilde := false, inRun := false, inQuotes := !w.inQuotes }
          (addWhole .mark acc) rest
      | part => do
        let new ← substitution run { m with quoted := m.quoted || w.inQuotes } part
        let acc := addPieces new acc
        if endsWord part then return inOrder acc
        else walk run m { w with tilde := false, inRun := false } acc rest

/-- What a substitution gives. -/
def substitution (run : Option Tree → Script Bytes) (m : Mode) : Part → Script (List Piece)
  | .output commands => do
    let bs ← run commands
    let bs := (bs.reverse.dropWhile (· == '\n')).reverse
    return [⟨glyphs m.quoted bs, if m.quoted then .whole else .atSeparators⟩]
  | .number expression => do
    let text := Piece.bytes (← walk run {} {} [] expression)
    let i ← get
    let answer := Arithmetic.evaluate i.value? text
    assignNumbers answer.assigned
    match answer.value with
    | .ok n => return [⟨glyphs m.quoted (Bytes.ofInt n), if m.quoted then .whole else .atSeparators⟩]
    | .error f => fail (f.message text)
  | .parameter name operation nullToo word => do
    if operation == .bad then failWith "Bad substitution"
    let i ← get
    let value := parameter? i m name
    let there := match value with
      | none => false
      | some gs => !(nullToo && gs.isEmpty)
    let given : Script (List Piece) := return recorded i m name (value.getD [])
    let unset : Script Unit := do
      if !there && i.options.contains "nounset" then missing name (Bytes.ofLiteral notSet)
    let pattern : Script (List Sign) := do
      let ps ← walk run {} { tilde := true } [] word
      return Glyph.signs (Piece.glyphsOf ps)
    let trimmed (f : List Sign → List Glyph → List Glyph) : Script (List Piece) := do
      unset
      if !there then return []
      else do
        let signs ← pattern
        return recorded i m name (f signs (value.getD []))
    match operation with
    | .minus =>
      if there then given else walk run { m with tilde := true, word := true } { tilde := true } [] word
    | .plus =>
      if there then walk run { m with tilde := true, word := true } { tilde := true } [] word
      else return []
    | .assign =>
      if there then given
      else do
        let text := Piece.bytes (← walk run {} { tilde := true } [] word)
        assignNamed name text false
        let i ← get
        return recorded i m name ((parameter? i m name).getD [])
    | .question =>
      if there then given
      else do
        let text := Piece.bytes (← walk run {} { tilde := true } [] word)
        missing name (if word.isEmpty then
            Bytes.ofLiteral (if nullToo then notSet ++ " or null" else notSet)
          else text)
    | .length => do
      unset
      let n := (value.map (·.length)).getD 0
      return recorded i m name (glyphs m.quoted (Bytes.ofNat n))
    | .dropLeft => trimmed (Glyph.dropStart false)
    | .dropLeftMost => trimmed (Glyph.dropStart true)
    | .dropRight => trimmed (Glyph.dropEnd false)
    | .dropRightMost => trimmed (Glyph.dropEnd true)
    | .followed => do
      unset
      let first ← given
      let more ← walk run { m with word := true } {} [] word
      return first ++ more
    | .plain | .bad => do
      unset
      if there then given else return []
  | _ => return []

end

/-- The pieces of a word. -/
def pieces (run : Option Tree → Script Bytes) (m : Mode) (w : Word) : Script (List Piece) :=
  walk run m { tilde := m.tilde } [] w

/-- The bytes of a word that is not split. -/
def text (run : Option Tree → Script Bytes) (m : Mode) (w : Word) : Script Bytes := do
  return Piece.bytes (← pieces run m w)

/-- Does one text come before another, byte by byte? -/
def bytesBefore (a b : Bytes) : Bool :=
  !(b.map Char.toNat).lex (a.map Char.toNat) fun m n => decide (m < n)

/-- The names in a folder that a pattern fits; those with a dot in front only if the pattern begins
with one. -/
def namesFitting (s : System) (cwd : Place) (folder : Bytes) (signs : List Sign) : List Bytes :=
  match s.thing cwd (if folder.isEmpty then ['.'] else folder) with
  | .ok (.folder, place) =>
    let dotted := (signs.head?.map fun x => x.byte == '.').getD false
    let names := if s.folder.bars place then []
      else ".".toList :: "..".toList :: (s.folder.names place).map Bytes.ofText
    names.filter fun n => (dotted || n.head? != some '.') && Pattern.fits signs n
  | _ => []

/-- The paths that fit a pattern, given by its components, behind a path that is already there. -/
def pathsFitting (s : System) (cwd : Place) (before : Bytes) : List (List Sign) → List Bytes
  | [] => []
  | [last] =>
    if Pattern.isActive last then (namesFitting s cwd before last).map (before ++ ·)
    else
      let path := before ++ last.map (·.byte)
      if (s.thing cwd path).isOk then [path] else []
  | part :: rest =>
    if Pattern.isActive part then
      (namesFitting s cwd before part).flatMap fun n => pathsFitting s cwd (before ++ n ++ ['/']) rest
    else pathsFitting s cwd (before ++ part.map (·.byte) ++ ['/']) rest

/-- The components of a pattern between slashes. -/
def components : List Sign → List (List Sign)
  | [] => [[]]
  | s :: rest =>
    if s.byte == '/' then [] :: components rest
    else match components rest with
      | first :: more => (s :: first) :: more
      | [] => [[s]]

/-- The paths that a field stands for, in order; the field itself if there are none. -/
def paths (field : List Glyph) : Script (List Bytes) := do
  let signs := Glyph.signs field
  let itself := [Glyph.bytes field]
  let i ← get
  if i.options.contains "noglob" || !Pattern.isActive signs then return itself
  else
    let s ← system
    match pathsFitting s i.cwd [] (components signs) with
    | [] => return itself
    | found => return found.mergeSort bytesBefore

/-- The fields of a word. -/
def fields (run : Option Tree → Script Bytes) (w : Word) : Script (List Bytes) := do
  let ps ← pieces run { full := true, tilde := true } w
  let i ← get
  let fs := Fields.split (i.separators.getD Interpreter.defaultSeparators) none ps
  go fs []
where
  /-- the paths of all fields -/
  go : List (List Glyph) → List (List Bytes) → Script (List Bytes)
    | [], acc => return acc.reverse.flatten
    | f :: rest, acc => do
      let found ← paths f
      go rest (found :: acc)

/-- The fields of words. -/
def allFields (run : Option Tree → Script Bytes) (acc : List (List Bytes)) :
    List Word → Script (List Bytes)
  | [] => return acc.reverse.flatten
  | w :: rest => do
    let fs ← fields run w
    allFields run (fs :: acc) rest

/-- The pattern that a word writes. -/
def pattern (run : Option Tree → Script Bytes) (w : Word) : Script (List Sign) := do
  return Glyph.signs (Piece.glyphsOf (← pieces run { tilde := true } w))

end MergeGate.Shell.Expansion
