/-
Scripts from text. The text of a word is read byte by byte in one of four ways: plain, between
double quotes, between single quotes, or as an expression; substitutions may stand inside each other,
so the ways form a stack. Commands inside a word are parsed as soon as they are reached. One list of
commands is read at a time, up to the end of its line.
-/
import MergeGate.Shell.Token

namespace MergeGate.Shell

/-- How the bytes of a word are taken. -/
inductive Way where
  | plain
  | double
  | single
  | expression
  deriving DecidableEq, Repr

/-- One level of a word. -/
structure Level where
  way : Way
  /-- the braces that are open -/
  braces : Nat := 0
  /-- the braces that were opened between double quotes -/
  quotedBraces : Nat := 0
  /-- the parentheses that are open -/
  parentheses : Nat := 0
  /-- inside double quotes that were opened within braces -/
  innerQuotes : Bool := false
  /-- was the level begun by a brace? -/
  ofBrace : Bool := false
  doubleQuoted : Bool := false

/-- What has been read of a word: its parts, with the ends of substitutions still among them. -/
inductive Code where
  | part (p : Part)
  | parameter (name : Bytes) (operation : Operation) (nullToo : Bool)
  | endParameter
  | expression
  | endExpression

/-- A word that is being read; what has been read is reversed. -/
structure Reading where
  top : Level
  below : List Level := []
  codes : List Code := []
  quotes : Bool := false

namespace Reading

/-- Add to what has been read. -/
def add (r : Reading) (c : Code) : Reading := { r with codes := c :: r.codes }

/-- Add a byte. -/
def byte (r : Reading) (c : Char) : Reading := r.add (.part (.byte c))

/-- Add a quoted byte. -/
def quoted (r : Reading) (c : Char) : Reading := r.add (.part (.quoted c))

/-- Begin a level. -/
def push (r : Reading) (l : Level) : Reading := { r with top := l, below := r.top :: r.below }

/-- End a level. -/
def pop (r : Reading) : Reading :=
  match r.below with
  | l :: below => { r with top := l, below }
  | [] => r

end Reading

/-- The opening of a substitution, and what was read before it, reversed. -/
abbrev Enclosing := Code × List Part

/-- Close the innermost substitution. -/
def closePart (opening : Code) (inside : List Part) : Part :=
  match opening with
  | .parameter name operation nullToo => .parameter name operation nullToo inside.reverse
  | _ => .number inside.reverse

/-- Parts from codes: the substitutions that are open, and what was read inside the last one. -/
def nestCodes (enclosing : List Enclosing) (inside : List Part) : List Code → Word
  | [] => inside.reverse
  | .part p :: rest => nestCodes enclosing (p :: inside) rest
  | .parameter name .plain nullToo :: rest =>
    nestCodes enclosing (.parameter name .plain nullToo [] :: inside) rest
  | .parameter name operation nullToo :: rest =>
    nestCodes ((.parameter name operation nullToo, inside) :: enclosing) [] rest
  | .expression :: rest => nestCodes ((.expression, inside) :: enclosing) [] rest
  | .endParameter :: rest | .endExpression :: rest => match enclosing with
    | (opening, before) :: more => nestCodes more (closePart opening inside :: before) rest
    | [] => nestCodes [] inside rest

/-- The bytes that are taken as quoted between quotes, since they mean something in patterns, tildes
and assignments. -/
def isSensitive (c : Char) : Bool := "!*?[=~:/-]".toList.contains c

/-- Does a plain word end before the byte? -/
def endsWord (c : Char) : Bool := "<>();&| \t".toList.contains c

/-- The bytes of a word without its quotation. -/
def Word.unquoted (w : Word) : Bytes :=
  w.filterMap fun
    | .byte c | .quoted c => some c
    | _ => none

/-- The special commands that take no function's name. -/
def specialNames : List String :=
  [".", ":", "break", "continue", "eval", "exec", "exit", "export", "readonly", "return", "set",
    "shift", "times", "trap", "unset"]

/-- A list of commands that was read: nothing more follows when the text has ended before it. -/
structure Listed where
  tree : Option Tree
  atEnd : Bool := false

/-- A list with one more command. -/
def joinTrees (first : Option Tree) (second : Tree) : Tree :=
  match first with
  | none => second
  | some t => .sequence t second

/-- A command that is not waited for. -/
def Tree.inBackground (line : Nat) : Tree → Tree
  | .pipe _ stages => .pipe true stages
  | .redirected line body redirections => .background line body redirections
  | t => .background line t []

/-- The operation that a byte begins. -/
def operationOf? (c : Char) : Option Operation :=
  if c == '\x7d' then some .plain
  else if c == '-' then some .minus
  else if c == '+' then some .plus
  else if c == '?' then some .question
  else if c == '=' then some .assign
  else none

/-- The head of a parameter in braces. -/
structure ParameterHead where
  name : Bytes
  operation : Operation
  nullToo : Bool := false
  /-- the byte after the head, when it has to be read again -/
  again : Option (Option Char) := none

namespace Parse

/-- Bytes as long as they satisfy `p`, behind those in `acc`, which is reversed; and the byte after
them. -/
def nameFrom (fuel : Nat) (p : Char → Bool) (acc : Bytes) (c : Option Char) :
    Parse (Bytes × Option Char) :=
  match fuel, c with
  | fuel + 1, some d => if p d then do nameFrom fuel p (d :: acc) (← nextJoined) else return (acc.reverse, c)
  | _, _ => return (acc.reverse, c)

/-- The operation after the name of a parameter in braces, at the given byte. -/
def parameterOperation (name : Bytes) (c : Option Char) : Parse ParameterHead := do
  match c with
  | some ':' => do
    let d ← nextJoined
    match d.bind operationOf? with
    | some .plain => return { name, operation := .followed, nullToo := true }
    | some operation => return { name, operation, nullToo := true }
    | none => return { name, operation := .bad, nullToo := true }
  | some '%' => do
    let d ← nextJoined
    if d == some '%' then return { name, operation := .dropRightMost }
    else do
      back d
      return { name, operation := .dropRight }
  | some '#' => do
    let d ← nextJoined
    if d == some '#' then return { name, operation := .dropLeftMost }
    else do
      back d
      return { name, operation := .dropLeft }
  | c => match c.bind operationOf? with
    | some operation => return { name, operation }
    | none => return { name, operation := .bad }

/-- The length of a parameter: the byte after its name must close the brace. -/
def parameterLength (name : Bytes) (c : Option Char) : ParameterHead :=
  { name, operation := if c == some '\x7d' then .length else .bad, again := some c }

/-- The head of a parameter after its opening brace. -/
def parameterHead (fuel : Nat) : Parse ParameterHead := do
  let c ← nextJoined
  match c with
  | some d =>
    if isNameStart d then do
      let (name, c) ← nameFrom fuel isNameRest [] c
      parameterOperation name c
    else if isDigitByte d then do
      let (name, c) ← nameFrom fuel isDigitByte [] c
      parameterOperation name c
    else if d == '\x7d' then return { name := [], operation := .bad, again := some c }
    else if d == '#' then do
      let e ← nextJoined
      match e with
      | some f =>
        if isNameStart f then do
          let (name, c) ← nameFrom fuel isNameRest [] e
          return parameterLength name c
        else if isDigitByte f then do
          let (name, c) ← nameFrom fuel isDigitByte [] e
          return parameterLength name c
        else do
          let g ← nextJoined
          if f == '\x7d' || g != some '\x7d' then do
            back g
            parameterOperation ['#'] e
          else if isSpecialParameter f then return parameterLength [f] g
          else return { name := [], operation := .bad, again := some g }
      | none => parameterOperation ['#'] e
    else do
      let e ← nextJoined
      if isSpecialParameter d then parameterOperation [d] e
      else return { name := [], operation := .bad, again := some e }
  | none => return { name := [], operation := .bad, again := some none }

/-- The rest of a line that might be the mark of a here-document: whether it is, and otherwise the
byte at which the line begins, all else being put back. -/
def endMarkHere (mark : Bytes) (c : Option Char) : Parse (Bool × Option Char) := do
  let before ← get
  let rec walk : Bytes → Option Char → Parse Bool
    | [], c => return c == some '\n' || c.isNone
    | m :: rest, c => do
      if c == some m then walk rest (← next) else return false
  if ← walk mark c then
    newLine
    return (true, none)
  else
    set before
    return (false, c)

/-- Skip the tabs at the start of a line. -/
def skipTabs (fuel : Nat) (c : Option Char) : Parse (Option Char) :=
  match fuel with
  | 0 => return c
  | fuel + 1 => do
    if c == some '\t' then skipTabs fuel (← next) else return c

/-- Skip a comment. -/
def skipComment (fuel : Nat) : Parse Unit :=
  match fuel with
  | 0 => return
  | fuel + 1 => do
    match ← next with
    | some '\n' => back (some '\n')
    | some _ => skipComment fuel
    | none => return

/-- The text up to the closing backquote, in which some backslashes are taken away. -/
def backquoted (fuel : Nat) (doubleQuoted : Bool) (acc : Bytes) : Parse Bytes :=
  match fuel with
  | 0 => fail "EOF in backquote substitution"
  | fuel + 1 => do
    match ← nextJoined with
    | none => fail "EOF in backquote substitution"
    | some '`' => return acc.reverse
    | some '\\' => do
      match ← next with
      | none => fail "EOF in backquote substitution"
      | some c =>
        if c == '\\' || c == '`' || c == '$' || (doubleQuoted && c == '"') then
          backquoted fuel doubleQuoted (c :: acc)
        else backquoted fuel doubleQuoted (c :: '\\' :: acc)
    | some '\n' => do
      newLine
      backquoted fuel doubleQuoted ('\n' :: acc)
    | some c => backquoted fuel doubleQuoted (c :: acc)

/-- The kind of a redirection after its first sign. -/
def redirectionAim (stream : Option Nat) (sign : Char) : Parse Aim := do
  let c ← nextJoined
  if sign == '>' then
    let s := stream.getD 1
    match c with
    | some '>' => return .file s .append
    | some '|' => return .file s .clobber
    | some '&' => return .same s
    | c => do
      back c
      return .file s .write
  else
    let s := stream.getD 0
    match c with
    | some '<' => do
      let d ← nextJoined
      if d == some '-' then return .here s true
      else do
        back d
        return .here s false
    | some '&' => return .same s
    | some '>' => return .file s .readWrite
    | c => do
      back c
      return .file s .read

/-- A backslash and the byte behind it. -/
def escaped (r : Reading) (inDocument : Bool) (c : Char) : Reading :=
  let keeps := r.top.doubleQuoted && c != '\\' && c != '`' && c != '$' &&
    (c != '"' || (inDocument && r.top.braces == 0)) && (c != '\x7d' || r.top.braces == 0)
  let r := if keeps then r.quoted '\\' else r
  { r.quoted c with quotes := true }

mutual

/-- Read a word on, from the byte `c` at the start of a line. In a here-document the line may be the
end mark. Gives the byte at which the word ended. -/
def wordLine (fuel : Nat) (document : Option OpenDocument) (c : Option Char) (r : Reading) :
    Parse (Option Char × Reading) :=
  match fuel with
  | 0 => return (c, r)
  | fuel + 1 => do
    match document with
    | none => wordFrom fuel document c r
    | some d => do
      let c ← if d.stripTabs then skipTabs fuel c else pure c
      let (ended, c) ← endMarkHere d.mark c
      if ended then return (none, r) else wordFrom fuel document c r

/-- Read a word on, from the byte `c`. -/
def wordFrom (fuel : Nat) (document : Option OpenDocument) (c : Option Char) (r : Reading) :
    Parse (Option Char × Reading) :=
  match fuel with
  | 0 => return (c, r)
  | fuel + 1 => do
    let goOn (r : Reading) : Parse (Option Char × Reading) := do
      let c ← if r.top.way == .single then next else nextJoined
      wordFrom fuel document c r
    let mark (r : Reading) : Reading := if document.isNone then r.add (.part .mark) else r
    let endQuote (c : Char) : Parse (Option Char × Reading) := do
      if document.isSome && r.top.braces == 0 then goOn (r.byte c)
      else
        let top := if r.top.quotedBraces == 0 then { r.top with way := .plain, doubleQuoted := false }
          else r.top
        let top := if c == '"' && 0 < top.braces then { top with innerQuotes := !top.innerQuotes }
          else top
        goOn (mark { r with top, quotes := true })
    match c with
    | none => return (none, r)
    | some '\n' =>
      if r.top.way == .plain && r.top.braces == 0 then return (c, r)
      else do
        newLine
        wordLine fuel document (← next) (r.byte '\n')
    | some c =>
      match r.top.way with
      | .single =>
        if c == '\'' then endQuote c
        else if c == '\\' || isSensitive c then
          goOn (if document.isNone || r.top.doubleQuoted || 0 < r.top.braces then r.quoted c
            else r.byte c)
        else goOn (r.byte c)
      | way =>
        if c == '\\' then do
          match ← next with
          | none => do
            goOn (r.quoted '\\')
          | some d => goOn (escaped r document.isSome d)
        else if c == '\'' && way == .plain then
          goOn (mark { r with top := { r.top with way := .single } })
        else if c == '"' && way == .plain then
          let top := { r.top with way := .double, doubleQuoted := true }
          let top := if 0 < top.braces then { top with innerQuotes := !top.innerQuotes } else top
          goOn (mark { r with top })
        else if c == '"' && way == .double then endQuote c
        else if c == '$' then do goOn (← substitution fuel r)
        else if c == '\x7d' then
          if !r.top.innerQuotes && 0 < r.top.braces then
            let braces := r.top.braces - 1
            let closed := { r with top := { r.top with braces } }
            let closed :=
              if braces == 0 && r.top.ofBrace then closed.pop
              else if 0 < r.top.quotedBraces then
                { closed with top := { closed.top with quotedBraces := r.top.quotedBraces - 1 } }
              else closed
            goOn (closed.add .endParameter)
          else goOn (r.byte c)
        else if c == '`' then do
          if (← get).expecting.endMark then goOn (r.byte c)
          else do goOn (← oldOutput fuel r)
        else if way == .expression && c == '(' then
          goOn ({ r with top := { r.top with parentheses := r.top.parentheses + 1 } }.byte c)
        else if way == .expression && c == ')' then
          if 0 < r.top.parentheses then
            goOn ({ r with top := { r.top with parentheses := r.top.parentheses - 1 } }.byte c)
          else do
            let d ← nextJoined
            if d == some ')' then goOn (r.add .endExpression).pop
            else do
              back d
              goOn (r.byte c)
        else if way == .double && isSensitive c then
          goOn (if document.isNone || r.top.doubleQuoted || 0 < r.top.braces then r.quoted c
            else r.byte c)
        else if way == .plain && endsWord c && r.top.braces == 0 then return (some c, r)
        else goOn (r.byte c)

/-- What a dollar sign begins. -/
def substitution (fuel : Nat) (r : Reading) : Parse Reading :=
  match fuel with
  | 0 => return r
  | fuel + 1 => do
    let c ← nextJoined
    let plainSign : Parse Reading := do
      back c
      return r.byte '$'
    if (← get).expecting.endMark then plainSign
    else match c with
      | none => plainSign
      | some '(' => do
        let d ← nextJoined
        if d == some '(' then
          return (r.add .expression).push { way := .expression, doubleQuoted := true }
        else do
          back d
          newOutput fuel r
      | some '\x7b' => do
        let head ← parameterHead fuel
        if let some again := head.again then back again
        let r := r.add (.parameter head.name head.operation head.nullToo)
        if head.operation == .plain then return r
        else
          let trims := [Operation.dropLeft, .dropLeftMost, .dropRight, .dropRightMost].contains
            head.operation
          let way := if trims then Way.plain
            else if r.top.way == .expression then .double else r.top.way
          let r :=
            if way != r.top.way || r.top.innerQuotes then
              r.push { way, ofBrace := true, doubleQuoted := way != .plain }
            else r
          return { r with top := { r.top with
            braces := r.top.braces + 1
            quotedBraces := if r.top.doubleQuoted then r.top.quotedBraces + 1
              else r.top.quotedBraces } }
      | some d =>
        if isNameStart d then do
          let (name, c) ← nameFrom fuel isNameRest [] c
          back c
          return r.add (.parameter name .plain false)
        else if isSpecialParameter d then return r.add (.parameter [d] .plain false)
        else plainSign

/-- Commands between parentheses, whose output is meant. -/
def newOutput (fuel : Nat) (r : Reading) : Parse Reading :=
  match fuel with
  | 0 => return r
  | fuel + 1 => do
    let outer ← get
    set { outer with owed := [], expecting := {}, pushedBack := false }
    let listed ← list fuel 2 none
    if (← token fuel) != .closing then instead .closing
    documents fuel
    modify fun p => { p with
      owed := outer.owed, expecting := outer.expecting, pushedBack := false }
    return r.add (.part (.output listed.tree))

/-- Commands between backquotes, whose output is meant. They are a text of their own. -/
def oldOutput (fuel : Nat) (r : Reading) : Parse Reading :=
  match fuel with
  | 0 => return r
  | fuel + 1 => do
    let text ← backquoted fuel r.top.doubleQuoted []
    let outer ← get
    set { outer with
      segments := [(text, none)], line := 1, owed := [], expecting := {}, pushedBack := false }
    let listed ← list fuel 2 none
    documents fuel
    modify fun p => { outer with documents := p.documents, last := p.last }
    return r.add (.part (.output listed.tree))

/-- A word or redirection that begins with the byte `c`. -/
def wordToken (fuel : Nat) (c : Option Char) : Parse Token :=
  match fuel with
  | 0 => found .ending
  | fuel + 1 => do
    let (c, r) ← wordFrom fuel none c { top := { way := .plain } }
    if r.top.way == .expression then fail "Missing '))'"
    else if r.top.way != .plain then fail "Unterminated quoted string"
    else if r.top.braces != 0 then fail "Missing '\x7d'"
    else
      let w := nestCodes [] [] r.codes.reverse
      let stream : Option (Option Nat) := match w with
        | [] => some none
        | [.byte d] => if isDigitByte d then some (some (d.toNat - 48)) else none
        | _ => none
      match c, stream, r.quotes with
      | some '<', some s, false | some '>', some s, false => do
        let aim ← redirectionAim s (c.getD '<')
        modify fun p => { p with aim }
        found .redirection
      | c, _, quotes => do
        back c
        modify fun p => { p with word := w, quotes }
        found .word

/-- The next token, words not yet looked at closely. -/
def rawToken (fuel : Nat) : Parse Token :=
  match fuel with
  | 0 => found .ending
  | fuel + 1 => do
    let p ← get
    if p.pushedBack then
      set { p with pushedBack := false }
      return p.last
    let doubled (c : Char) (two one : Token) : Parse Token := do
      let d ← nextJoined
      if d == some c then found two
      else do
        back d
        found one
    match ← nextJoined with
    | none => found .ending
    | some ' ' | some '\t' => rawToken fuel
    | some '#' => do
      skipComment (1000000 + fuel)
      rawToken fuel
    | some '\n' => do
      newLine
      found .newline
    | some '&' => doubled '&' .both .background
    | some '|' => doubled '|' .either .pipe
    | some ';' => doubled ';' .endArm .semicolon
    | some '(' => found .opening
    | some ')' => found .closing
    | some c => wordToken fuel (some c)

/-- Tokens up to the first that is no line end. -/
def pastNewlines (fuel : Nat) (t : Token) : Parse Token :=
  match fuel with
  | 0 => return t
  | fuel + 1 => do
    if t == .newline then do
      documents fuel
      expect {}
      pastNewlines fuel (← rawToken fuel)
    else return t

/-- The next token: keywords are told from words and aliases replaced where they are expected. -/
def token (fuel : Nat) : Parse Token := do
  tokenWith fuel (← get).expecting

/-- The next token under the given expectation. -/
def tokenWith (fuel : Nat) (e : Expecting) : Parse Token :=
  match fuel with
  | 0 => found .ending
  | fuel + 1 => do
    let t ← rawToken fuel
    let t ← if e.newlines then pastNewlines fuel t else pure t
    let p ← get
    let e := e.or p.expecting
    set { p with expecting := {} }
    if t != .word || p.quotes then return t
    else match Word.plain? p.word with
      | none => return t
      | some text =>
        if e.keywords && keywords.contains (String.ofList text) then
          found (.keyword (String.ofList text))
        else match if e.aliases then p.aliases.lookup text else none with
          | none => return t
          | some value =>
            if p.segments.any fun s => s.2 == some text then return t
            else do
              modify fun p => { p with segments := (value, some text) :: p.segments }
              tokenWith fuel e

/-- The texts of the here-documents that are owed. -/
def documents (fuel : Nat) : Parse Unit :=
  match fuel with
  | 0 => return
  | fuel + 1 => do
    let p ← get
    match p.owed with
    | [] => return
    | d :: rest => do
      set { p with owed := rest }
      let way := if d.literal then Way.single else .double
      let c ← if d.literal then next else nextJoined
      let (_, r) ← wordLine fuel (some d) c { top := { way, doubleQuoted := way == .double } }
      if r.top.way == .expression then fail "Missing '))'"
      else if r.top.braces != 0 then fail "Missing '\x7d'"
      let w := nestCodes [] [] r.codes.reverse
      modify fun p => { p with documents := p.documents.setIfInBounds d.number w }
      documents fuel

/-- The redirection whose kind was just read, with its target. -/
def redirection (fuel : Nat) : Parse Redirection :=
  match fuel with
  | 0 => unexpected
  | fuel + 1 => do
    let aim := (← get).aim
    if let .here .. := aim then expect { endMark := true }
    if (← token fuel) != .word then unexpected
    let p ← get
    match aim with
    | .file stream direction => return .file stream direction p.word
    | .same stream => match Word.plain? p.word with
      | some ['-'] => return .same stream none
      | some [d] =>
        if isDigitByte d then return .same stream (some (d.toNat - 48))
        else return .sameNamed stream p.word
      | _ => return .sameNamed stream p.word
    | .here stream stripTabs => do
      let number := p.documents.size
      let d : OpenDocument := ⟨number, p.word.unquoted, stripTabs, p.quotes⟩
      set { p with owed := p.owed ++ [d], documents := p.documents.push [] }
      return .here stream number

/-- The redirections behind a command. -/
def redirections (fuel : Nat) : Parse (List Redirection) :=
  match fuel with
  | 0 => return []
  | fuel + 1 => do
    if (← token fuel) == .redirection then do
      let r ← redirection fuel
      let more ← redirections fuel
      return r :: more
    else do
      pushBack
      return []

/-- Words up to another token. -/
def words (fuel : Nat) : Parse (List Word) :=
  match fuel with
  | 0 => return []
  | fuel + 1 => do
    if (← token fuel) == .word then do
      let w := (← get).word
      let more ← words fuel
      return w :: more
    else return []

/-- The patterns of an arm, the first of which was just read. -/
def patterns (fuel : Nat) : Parse (List Word) :=
  match fuel with
  | 0 => return []
  | fuel + 1 => do
    let w := (← get).word
    if (← token fuel) == .pipe then do
      discard (token fuel)
      let more ← patterns fuel
      return w :: more
    else return [w]

/-- The arms of a case, up to its end. -/
def arms (fuel : Nat) : Parse (List (List Word × Option Tree)) :=
  match fuel with
  | 0 => return []
  | fuel + 1 => do
    expect { newlines := true, keywords := true }
    let t ← token fuel
    if t == .keyword "esac" then return []
    else do
      if t == .opening then discard (token fuel)
      let ps ← patterns fuel
      if (← get).last != .closing then instead .closing
      let body ← list fuel 2 none
      expect { newlines := true, keywords := true }
      let t ← token fuel
      if t == .keyword "esac" then return [(ps, body.tree)]
      else if t != .endArm then instead .endArm
      else do
        let more ← arms fuel
        return (ps, body.tree) :: more

/-- What follows the first test of a choice. -/
def choiceRest (fuel : Nat) (test : Option Tree) : Parse Tree :=
  match fuel with
  | 0 => unexpected
  | fuel + 1 => do
    if (← token fuel) != .keyword "then" then instead (.keyword "then")
    let body ← list fuel 0 none
    let t ← token fuel
    let otherwise ← if t == .keyword "elif" then do
        let test ← list fuel 0 none
        let rest ← choiceRest fuel test.tree
        pure (some rest)
      else if t == .keyword "else" then do
        let listed ← list fuel 0 none
        pure listed.tree
      else do
        pushBack
        pure none
    return .choice (test.getD default) body.tree otherwise

/-- A command with several parts, whose first token was read; the token that must close it. -/
def compound (fuel : Nat) (line : Nat) (t : Token) : Parse (Tree × Option Token) :=
  match fuel with
  | 0 => unexpected
  | fuel + 1 => do
    match t with
    | .keyword "if" => do
      let test ← list fuel 0 none
      let c ← choiceRest fuel test.tree
      return (c, some (.keyword "fi"))
    | .keyword "while" | .keyword "until" => do
      let test ← list fuel 0 none
      if (← token fuel) != .keyword "do" then instead (.keyword "do")
      let body ← list fuel 0 none
      return (.loop (t == .keyword "until") (test.tree.getD default) body.tree,
        some (.keyword "done"))
    | .keyword "for" => do
      let t ← token fuel
      let p ← get
      let name := (Word.plain? p.word).getD []
      if t != .word || p.quotes || !isName name then fail "Bad for loop variable"
      expect lineStart
      let ws ← if (← token fuel) == .keyword "in" then do
          let ws ← words fuel
          let last := (← get).last
          if last != .newline && last != .semicolon then unexpected
          pure ws
        else do
          if (← get).last != .semicolon then pushBack
          pure [[.mark, .parameter ['@'] .plain false [], .mark]]
      expect lineStart
      if (← token fuel) != .keyword "do" then instead (.keyword "do")
      let body ← list fuel 0 none
      return (.each line name ws body.tree, some (.keyword "done"))
    | .keyword "case" => do
      if (← token fuel) != .word then instead .word
      let w := (← get).word
      expect lineStart
      if (← token fuel) != .keyword "in" then instead (.keyword "in")
      let as ← arms fuel
      return (.cases line w as, none)
    | .opening => do
      let body ← list fuel 0 none
      return (.subshell line body.tree [], some .closing)
    | .keyword "\x7b" => do
      let body ← list fuel 0 none
      return (body.tree.getD default, some (.keyword "\x7d"))
    | _ => unexpected

/-- A command. -/
def command (fuel : Nat) : Parse Tree :=
  match fuel with
  | 0 => unexpected
  | fuel + 1 => do
    let line := (← get).line
    let t ← token fuel
    if t == .word || t == .redirection then do
      pushBack
      let line := (← get).line
      simple fuel line { keywords := false, aliases := true } [] [] []
    else do
      let (body, closing) ← compound fuel line t
      if let some t := closing then
        if (← token fuel) != t then instead t
      expect commandStart
      match body, ← redirections fuel with
      | body, [] => return body
      | .subshell line inner _, rs => return .subshell line inner rs
      | body, rs => return .redirected line body rs

/-- A simple command: what has been read of it, reversed, and what its next word may be. -/
def simple (fuel : Nat) (line : Nat) (e : Expecting) (assignments arguments : List Word)
    (rs : List Redirection) : Parse Tree :=
  match fuel with
  | 0 => unexpected
  | fuel + 1 => do
    expect e
    let t ← token fuel
    match t with
    | .word => do
      let w := (← get).word
      if e.aliases && w.assignment?.isSome then simple fuel line e (w :: assignments) arguments rs
      else simple fuel line {} assignments (w :: arguments) rs
    | .redirection => do
      let r ← redirection fuel
      simple fuel line e assignments arguments (r :: rs)
    | t => do
      match t, arguments, assignments, rs with
      | .opening, [w], [], [] => do
        if (← token fuel) != .closing then instead .closing
        let name := (Word.plain? w).getD []
        if !isName name || specialNames.contains (String.ofList name) then fail "Bad function name"
        expect lineStart
        let line := (← get).line
        let body ← command fuel
        return .function line name body
      | _, _, _, _ => do
        pushBack
        return .simple line assignments.reverse arguments.reverse rs.reverse

/-- The further stages of a pipe. -/
def stages (fuel : Nat) : Parse (List Tree) :=
  match fuel with
  | 0 => return []
  | fuel + 1 => do
    if (← token fuel) == .pipe then do
      expect lineStart
      let c ← command fuel
      let more ← stages fuel
      return c :: more
    else do
      pushBack
      return []

/-- A pipe, perhaps negated. -/
def pipeline (fuel : Nat) : Parse Tree :=
  match fuel with
  | 0 => unexpected
  | fuel + 1 => do
    let negated := (← token fuel) == .keyword "!"
    if negated then expect commandStart else pushBack
    let first ← command fuel
    let t ← match ← stages fuel with
      | [] => pure first
      | more => pure (.pipe false (first :: more))
    return if negated then .negated t else t

/-- Pipes of which one depends on the one before. -/
def andOr (fuel : Nat) (first : Tree) : Parse Tree :=
  match fuel with
  | 0 => return first
  | fuel + 1 => do
    match ← token fuel with
    | .both => do
      expect lineStart
      let second ← pipeline fuel
      andOr fuel (.both first second)
    | .either => do
      expect lineStart
      let second ← pipeline fuel
      andOr fuel (.either first second)
    | _ => do
      pushBack
      return first

/-- A list of commands behind those in `acc`. Mode 1 is a line of the script, which a line end
ends; otherwise a token that closes something ends the list, in mode 0 not before its first
command. -/
def list (fuel : Nat) (mode : Nat) (acc : Option Tree) : Parse Listed :=
  match fuel with
  | 0 => return { tree := acc }
  | fuel + 1 => do
    let top := mode % 2 == 1
    expect { newlines := !top, keywords := true, aliases := true }
    let t ← token fuel
    let ended : Parse Listed := do
      documents fuel
      pushBack
      discard (found .ending)
      return { tree := acc, atEnd := acc.isNone && top }
    match t with
    | .newline => do
      documents fuel
      return { tree := acc }
    | .ending => ended
    | t => do
      pushBack
      if mode == 2 && t.endsList then return { tree := acc }
      else do
        let mode := if mode == 0 then 2 else if mode == 1 then 3 else mode
        let first ← pipeline fuel
        let n ← andOr fuel first
        let t ← token fuel
        let line := (← get).line
        let n := if t == .background then n.inBackground line else n
        let acc := joinTrees acc n
        match t with
        | .ending => do
          documents fuel
          pushBack
          discard (found .ending)
          return { tree := some acc }
        | .newline => do
          pushBack
          list fuel mode (some acc)
        | .background | .semicolon => list fuel mode (some acc)
        | _ => do
          if top then unexpected
          pushBack
          return { tree := some acc }

end

/-- The next line of a script, or more if it does not end there; nothing if the script is over. -/
def line (fuel : Nat) : Parse Listed := do
  modify fun p => { p with pushedBack := false, expecting := {}, owed := [] }
  list fuel 1 none

end Parse

/-- The number of bytes that a parser has left. -/
def Parsing.left (p : Parsing) : Nat := p.segments.foldl (fun n s => n + s.1.length) 0

/-- Is nothing left behind the commands that were read last? -/
def Parsing.atEnd (p : Parsing) : Bool := p.pushedBack && p.last == .ending

/-- Read the next line of a script. -/
def Parsing.readLine (p : Parsing) : Except SyntaxFault (Listed × Parsing) :=
  match Parse.line (20 * p.left + 1000) p with
  | .ok l p => .ok (l, p)
  | .error e _ => .error e

end MergeGate.Shell
