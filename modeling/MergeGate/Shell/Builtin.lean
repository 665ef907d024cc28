/-
The commands that are part of the interpreter and run no others. Each gives a status; what it writes
is sent off when it is done, and complaints at once.
-/
import MergeGate.Shell.Utility

namespace MergeGate.Shell.Builtin

open Script

/-- Bytes of a text in which every character is one byte. -/
def lit (s : String) : Bytes := Bytes.ofLiteral s

/-- The options at the start of words: letters, of which some take a value. As much fuel as bytes is
enough. -/
def optionsFrom (known withValue : List Char) (fuel : Nat) (acc : List (Char × Bytes))
    (words : List Bytes) : Script (List (Char × Bytes) × List Bytes) :=
  match fuel, words with
  | 0, _ | _, [] => return (acc.reverse, words)
  | fuel + 1, word :: rest =>
    match word with
    | ['-', '-'] => return (acc.reverse, rest)
    | '-' :: c :: more =>
      let next : List Bytes := if more.isEmpty then rest else ('-' :: more) :: rest
      if withValue.contains c then
        match more, rest with
        | [], value :: rest => optionsFrom known withValue fuel ((c, value) :: acc) rest
        | [], [] => fail (lit "No arg for -" ++ [c] ++ lit " option")
        | value, rest => optionsFrom known withValue fuel ((c, value) :: acc) rest
      else if known.contains c then optionsFrom known withValue fuel ((c, []) :: acc) next
      else fail (lit "Illegal option -" ++ [c])
    | _ => return (acc.reverse, words)

/-- The options at the start of words. -/
def options (known withValue : String) (words : List Bytes) :
    Script (List (Char × Bytes) × List Bytes) :=
  optionsFrom known.toList withValue.toList (words.flatten.length + words.length + 1) [] words

/-- The number that a word must write. -/
def number (word : Bytes) : Script Nat :=
  match Number.count? word with
  | some n => return n
  | none => fail (lit "Illegal number: " ++ word)

/-- A text between single quotes, as it can be read again. -/
def quote (bs : Bytes) : Bytes :=
  go (bs.length + 1) bs
where
  /-- runs without and with single quotes, in turn -/
  go (fuel : Nat) (bs : Bytes) : Bytes :=
    match fuel with
    | 0 => []
    | fuel + 1 =>
      let (plain, rest) := cutBefore (· == '\'') bs
      let marks := rest.takeWhile (· == '\'')
      let quoted := ['\''] ++ plain ++ ['\'']
      if marks.isEmpty then quoted
      else
        let after := rest.drop marks.length
        quoted ++ ['"'] ++ marks ++ ['"'] ++ if after.isEmpty then [] else go fuel after

/-- Show variables in order, each behind some words. -/
def showVariables (before : String) (keep : Variable → Bool) : Script Unit := do
  let i ← get
  let shown := (i.bindings.filter fun v => keep v.2).mergeSort fun a b =>
    Expansion.bytesBefore a.1 b.1
  say (shown.flatMap fun (name, v) =>
    lit (if before.isEmpty then "" else before ++ " ") ++ name ++
      (match v.value with
        | some x => '=' :: quote x
        | none => []) ++ ['\n'])

/-- Split a word at its first equality sign. -/
def atEquals (word : Bytes) : Bytes × Option Bytes :=
  let (name, rest) := cutBefore (· == '=') word
  (name, match rest with
    | _ :: value => some value
    | [] => none)

/-- Mark variables, which may be set at the same time. -/
def markVariables (mark : Variable → Variable) : List Bytes → Script Unit
  | [] => return
  | word :: rest => do
    let (name, value) := atEquals word
    match value with
    | some value => assignNamed name value false
    | none => if !isName name then fail (name ++ lit ": bad variable name")
    modify fun i => i.putVariable name
      (some (mark ((i.find? name).getD { value := none })))
    markVariables mark rest

/-- `export`. -/
def export_ (words : List Bytes) : Script Nat := do
  let (os, rest) ← options "p" "" words
  if !os.isEmpty || rest.isEmpty then showVariables "export" (·.exported)
  else markVariables (fun v => { v with exported := true }) rest
  return 0

/-- `readonly`. -/
def readonly (words : List Bytes) : Script Nat := do
  let (os, rest) ← options "p" "" words
  if !os.isEmpty || rest.isEmpty then showVariables "readonly" (·.constant)
  else markVariables (fun v => { v with constant := true }) rest
  return 0

/-- `local`. -/
def local_ (words : List Bytes) : Script Nat := do
  if (← get).functionDepth == 0 then failWith "not in a function"
  words.forM fun word => do
    let (name, value) := atEquals word
    if name != ['-'] then
      if !isName name then fail (name ++ lit ": bad variable name")
      keepLocal name
      match value with
      | some value => assignNamed name value false
      | none => return
  return 0

/-- `unset`. -/
def unset (words : List Bytes) : Script Nat := do
  let (os, rest) ← options "vf" "" words
  let functions := (os.getLast?.map (·.1)) == some 'f'
  rest.forM fun name =>
    if functions then modify fun i => { i with functions := i.functions.filter fun f => f.1 != name }
    else unassign name
  return 0

/-- Turn an option on or off. -/
def setOption (name : String) (on : Bool) : Script Unit :=
  modify fun i =>
    let others := i.options.filter (· != name)
    { i with options := if on then name :: others else others }

/-- Turn the option with a letter on or off. -/
def setLetter (c : Char) (on : Bool) : Script Unit :=
  match Expansion.optionLetters.find? fun o => o.2 == some c with
  | some o => setOption o.1 on
  | none => fail (lit "Illegal option -" ++ [c])

/-- Show the options. -/
def showOptions (readable : Bool) : Script Unit := do
  let i ← get
  if readable then
    say (lit "Current option settings\n")
    say (Expansion.optionLetters.flatMap fun o =>
      lit (o.1 ++ String.ofList (List.replicate (16 - o.1.length) ' ') ++
        (if i.options.contains o.1 then "on\n" else "off\n")))
  else
    say (Expansion.optionLetters.flatMap fun o =>
      lit ("set " ++ (if i.options.contains o.1 then "-" else "+") ++ "o " ++ o.1 ++ "\n"))

/-- The letters of a word of options; `o` takes its name from the words behind. Gives the words that
are left. -/
def setLetters (on : Bool) : Bytes → List Bytes → Script (List Bytes)
  | [], rest => return rest
  | 'o' :: more, rest => do
    match rest with
    | [] => do
      showOptions on
      setLetters on more []
    | name :: rest => do
      match Expansion.optionLetters.find? fun o => o.1.toList == name with
      | some o => setOption o.1 on
      | none => fail (lit "Illegal option -o " ++ name)
      setLetters on more rest
  | c :: more, rest => do
    setLetter c on
    setLetters on more rest

/-- New parameters of the script. -/
def setParameters (words : List Bytes) : Script Unit :=
  modify fun i => { i with parameters := words, optionWord := 1, optionByte := none }

/-- Read options; what is left are the parameters, if there are some or two dashes say so. As much
fuel as words is enough. -/
def setWords (fuel : Nat) (words : List Bytes) : Script Unit :=
  match fuel, words with
  | 0, _ | _, [] => return
  | fuel + 1, word :: rest =>
    match word with
    | ['-'] => do
      setOption "xtrace" false
      setOption "verbose" false
      if !rest.isEmpty then setParameters rest
    | ['-', '-'] => setParameters rest
    | '-' :: cs => do
      let rest ← setLetters true cs rest
      setWords fuel rest
    | '+' :: cs => do
      let rest ← setLetters false cs rest
      setWords fuel rest
    | _ => setParameters (word :: rest)

/-- `set`. -/
def set_ (words : List Bytes) : Script Nat := do
  if words.isEmpty then showVariables "" (·.value.isSome)
  else setWords (words.length + 1) words
  return 0

/-- `shift`. -/
def shift (words : List Bytes) : Script Nat := do
  let n ← match words with
    | [] => pure 1
    | word :: _ => number word
  let i ← get
  if i.parameters.length < n then failWith "can't shift that many"
  setParameters (i.parameters.drop n)
  return 0

/-- Leave some loops, or go on with their next rounds. -/
def leave (skip : Skip) (words : List Bytes) : Script Nat := do
  let n ← match words with
    | [] => pure 1
    | word :: _ => do
      let n ← number word
      if n == 0 then fail (lit "Illegal number: " ++ word)
      pure n
  let i ← get
  let n := min n i.loops
  if 0 < n then set { i with skip, skipCount := n }
  return 0

/-- `return`. -/
def return_ (words : List Bytes) : Script Nat := do
  match words with
  | [] => do
    modify fun i => { i with skip := .functionAsIs }
    return (← get).status
  | word :: _ => do
    let n ← number word
    modify fun i => { i with skip := .function }
    return n

/-- `exit`. -/
def exit (words : List Bytes) : Script Nat := do
  match words with
  | [] => stop .asked
  | word :: _ => do
    let n ← number word
    modify fun i => { i with savedStatus := some n }
    stop .asked

/-- The folder that names lead to, whether or not it is there. -/
def newFolder (s : System) (cwd : Place) (path : Bytes) : Place :=
  let (start, names) := s.route cwd (Bytes.toText path)
  names.foldl Folder.onward start

/-- Go to a folder; false if that is not possible. -/
def goTo (path : Bytes) : Script Bool := do
  let i ← get
  let s ← system
  match s.thing i.cwd path with
  | .ok (.folder, found) => do
    if s.folder.bars found then return false
    let place := newFolder s i.cwd path
    modify fun i => { i with cwd := place }
    assign "OLDPWD".toList (Bytes.ofText (Folder.shown i.cwd)) true
    assign "PWD".toList (Bytes.ofText (Folder.shown place)) true
    return true
  | _ => return false

/-- The folders in which `cd` looks for a path. -/
def lookOut (i : Interpreter) (path : Bytes) : List Bytes :=
  let dotted := match path with
    | '.' :: [] | '.' :: '/' :: _ | '.' :: '.' :: [] | '.' :: '.' :: '/' :: _ => true
    | _ => false
  if path.head? == some '/' || dotted then []
  else ((i.valueOf? "CDPATH").map (splitBytes ':')).getD []

/-- `cd`. -/
def cd (words : List Bytes) : Script Nat := do
  let (_, rest) ← options "LP" "" words
  let i ← get
  let (path, back) := match rest with
    | [] => ((i.valueOf? "HOME").getD [], false)
    | ['-'] :: _ => ((i.valueOf? "OLDPWD").getD [], true)
    | path :: _ => (path, false)
  let path := if path.isEmpty then ['.'] else path
  let s ← system
  let isFolder (p : Bytes) : Bool := match s.thing i.cwd p with
    | .ok (.folder, _) => true
    | _ => false
  let joined (folder : Bytes) : Bytes := if folder.isEmpty then path else folder ++ '/' :: path
  let found := (lookOut i path).find? fun f => isFolder (joined f)
  let target := (found.map joined).getD path
  if !(← goTo target) then fail (lit "can't cd to " ++ path)
  if back || (found.map fun f => !f.isEmpty).getD false then
    say (Bytes.ofText (Folder.shown (← get).cwd) ++ ['\n'])
  return 0

/-- `pwd`. -/
def pwd (words : List Bytes) : Script Nat := do
  discard (options "LP" "" words)
  say (Bytes.ofText (Folder.shown (← get).cwd) ++ ['\n'])
  return 0

/-- `echo`. -/
def echo (words : List Bytes) : Script Nat := do
  say (Format.echo words)
  return 0

/-- `printf`. -/
def printf (words : List Bytes) : Script Nat := do
  let (_, rest) ← options "" "" words
  match rest with
  | [] => failWith "usage: printf format [arg ...]"
  | format :: args => do
    let r := Format.print format args
    r.complaints.forM complain
    say r.output
    match r.fault with
    | some m => fail m
    | none => return if r.complaints.isEmpty then 0 else 1

/-- `test`, under one of its two names. -/
def test (bracket : Bool) (words : List Bytes) : Script Nat := do
  -- the last word closes the bracket as soon as it begins like one
  if bracket && (words.getLast?.bind (·.head?)) != some ']' then failWith "missing ]"
  let s ← system
  let i ← get
  match Question.answer (Utility.facts s i.cwd) (if bracket then words.dropLast else words) with
  | .ok b => return if b then 0 else 1
  | .error m => fail m

/-- A line that is read: the pieces so far and the run that goes on, both reversed. -/
structure Reading where
  pieces : List Piece := []
  run : List Glyph := []
  escaping : Bool := false

/-- The pieces of a line. -/
def Reading.finish (r : Reading) : List Piece :=
  (⟨r.run.reverse, .atSeparators⟩ :: r.pieces).reverse

/-- One more byte of a line; true if the line is over. -/
def Reading.step (raw : Bool) (r : Reading) (c : Char) : Reading × Bool :=
  if c.toNat == 0 then (r, false)
  else if r.escaping then
    if c == '\n' then ({ r with escaping := false }, false)
    else
      ({ pieces := ⟨[.quoted c], .whole⟩ :: ⟨r.run.reverse, .atSeparators⟩ :: r.pieces }, false)
  else if !raw && c == '\\' then ({ r with escaping := true }, false)
  else if c == '\n' then (r, true)
  else ({ r with run := .plain c :: r.run }, false)

/-- Bytes of a line up to its end; true if the line is over. -/
def Reading.bytes (raw : Bool) (r : Reading) : Bytes → Reading × Bool
  | [] => (r, false)
  | c :: rest => match r.step raw c with
    | (r, true) => (r, true)
    | (r, false) => r.bytes raw rest

/-- Read a line; false if the input ended before it. -/
def readLine (fuel : Nat) (raw : Bool) (r : Reading) : Script (Reading × Bool) :=
  match fuel with
  | 0 => stop .spent
  | fuel + 1 => do
    match ← read 0 Pipe.capacity true with
    | .error _ | .ok [] => return (r, false)
    | .ok bs => match r.bytes raw bs with
      | (r, true) => return (r, true)
      | (r, false) => readLine fuel raw r

/-- Give fields to variables; those for which no field is left become empty. -/
def giveFields : List Bytes → List Bytes → Script Unit
  | [], _ => return
  | name :: names, fields => do
    assignNamed name (fields.head?.getD []) false
    giveFields names fields.tail

/-- `read`. -/
def read_ (fuel : Nat) (words : List Bytes) : Script Nat := do
  let (os, names) ← options "r" "p" words
  if names.isEmpty then failWith "arg count"
  let (r, whole) ← readLine fuel (os.any fun o => o.1 == 'r') {}
  let i ← get
  let fields := Fields.split (i.separators.getD Interpreter.defaultSeparators) (some names.length)
    r.finish
  giveFields names (fields.map Glyph.bytes)
  return if whole then 0 else 1

/-- The next of the options of parameters: what `getopts` finds. -/
structure NextOption where
  letter : Char
  value : Option Bytes
  complaint : Option Bytes := none
  word : Nat
  byte : Option Nat
  ended : Bool := false

/-- Find the next option of words. -/
def nextOption (known : Bytes) (words : List Bytes) (word : Nat) (byte : Option Nat) : NextOption :=
  let silent := known.head? == some ':'
  let left : Bytes := match byte with
    | some b => if 1 < word then ((words[word - 2]?).getD []).drop b else []
    | none => []
  let atEnd (word : Nat) : NextOption :=
    { letter := '?', value := none, word, byte := none, ended := true }
  let read (letter : Char) (rest : Bytes) (word : Nat) : NextOption :=
    -- where the next byte of the word stands, if there is one
    let byte := some (((words[word - 2]?).getD []).length - rest.length)
    match (cutBefore (· == letter) known).2 with
    | _ :: ':' :: _ =>
      if letter == ':' then unknown letter word byte
      else if !rest.isEmpty then { letter, value := some rest, word, byte := none }
      else match words[word - 1]? with
        | some value => { letter, value := some value, word := word + 1, byte := none }
        | none =>
          if silent then { letter := ':', value := some [letter], word, byte }
          else
            { letter := '?', value := none, word, byte
              complaint := some (lit "No arg for -" ++ [letter] ++ lit " option\n") }
    | _ :: _ =>
      if letter == ':' then unknown letter word byte
      else { letter, value := some [], word, byte }
    | [] => unknown letter word byte
  match left with
  | c :: rest => read c rest word
  | [] => match words[word - 1]? with
    | some ['-', '-'] => atEnd (word + 1)
    | some ('-' :: c :: rest) => read c rest (word + 1)
    | _ => atEnd word
where
  /-- an option that is not known -/
  unknown (letter : Char) (word : Nat) (byte : Option Nat) : NextOption :=
    if known.head? == some ':' then { letter := '?', value := some [letter], word, byte }
    else
      { letter := '?', value := none, word, byte
        complaint := some (lit "Illegal option -" ++ [letter, '\n']) }

/-- `getopts`. -/
def getopts (words : List Bytes) : Script Nat := do
  match words with
  | known :: name :: rest => do
    let i ← get
    let among := if rest.isEmpty then i.parameters else rest
    let fits := i.optionWord ≤ among.length + 1
    let o := nextOption known among (if fits then i.optionWord else 1)
      (if fits then i.optionByte else none)
    if let some m := o.complaint then warn m
    if !o.ended then
      match o.value with
      | some v => assign "OPTARG".toList v false
      | none => unassign "OPTARG".toList
    assign "OPTIND".toList (Bytes.ofNat o.word) false
    modify fun i => { i with optionWord := o.word, optionByte := o.byte }
    assignNamed name [o.letter] false
    return if o.ended then 1 else 0
  | _ => failWith "Usage: getopts optstring var [arg...]"

/-- Set what is done about a signal. -/
def setTrap (signal : Nat) (action : Option Bytes) : Script Unit := do
  modify fun i =>
    let others := i.traps.filter fun t => t.1 != signal
    { i with traps := match action with
        | some a => (signal, a) :: others
        | none => others }
  if signal != 0 then
    changeProcess fun p =>
      let ignored := p.ignored.filter (· != signal)
      let caught := p.caught.filter (· != signal)
      match action with
      | none => { p with ignored, caught }
      | some [] => { p with ignored := signal :: ignored, caught }
      | some _ => { p with ignored, caught := signal :: caught }

/-- Set what is done about signals; 1 at the first that is none. -/
def setTraps (action : Option Bytes) : List Bytes → Script Nat
  | [] => return 0
  | word :: rest => match Signal.ofText? 0 word with
    | none => do
      warn (lit "trap: " ++ word ++ lit ": bad trap\n")
      return 1
    | some s => do
      setTrap s.number action
      setTraps action rest

/-- `trap`. -/
def trap (words : List Bytes) : Script Nat := do
  let (_, rest) ← options "" "" words
  match rest with
  | [] => do
    let i ← get
    say ((List.range Signal.limit).flatMap fun n => match i.trap? n with
      | some a => lit "trap -- " ++ quote a ++ [' '] ++ lit (Signal.mk n).name ++ ['\n']
      | none => [])
    return 0
  | [word] => setTraps none [word]
  | action :: signals =>
    if (Signal.ofDigits? action).isSome then setTraps none (action :: signals)
    else setTraps (if action == ['-'] then none else some action) signals

/-- The job with the given sign. -/
def job? (i : Interpreter) (word : Bytes) : Option Job :=
  match word with
  | '%' :: rest =>
    if rest.isEmpty || rest == ['%'] || rest == ['+'] then i.jobs.head?
    else if rest == ['-'] then (i.jobs[1]?).or i.jobs.head?
    else if rest.all isDigitByte then i.jobs.find? fun j => j.number == natOfDigits rest
    else none
  | _ => none

/-- The complaint about a job that is not there. -/
def noJob {α : Type} (word : Bytes) : Script α := fail (lit "No such job: " ++ word)

/-- Send a signal to one target; false if there is none. A job stands for a group of processes, and
no group but that of the whole script exists. -/
def killOne (signal : Signal) (word : Bytes) : Script Bool := do
  let i ← get
  let s ← system
  let nobody : Script Bool := do
    complain (lit "No such process\n")
    return false
  match word with
  | '%' :: _ => match job? i word with
    | none => noJob word
    | some _ => nobody
  | '-' :: rest => do
    let n ← number rest
    if n == i.root then do
      Script.sendAll signal
      return true
    else nobody
  | word => do
    let n ← number word
    if n == 0 then do
      Script.sendAll signal
      return true
    else if (s.process? n).isSome then do
      Script.send n signal
      return true
    else nobody

/-- Send a signal to targets; 1 if one is not there. -/
def killAll (signal : Signal) (status : Nat) : List Bytes → Script Nat
  | [] => return status
  | word :: rest => do
    let ok ← killOne signal word
    killAll signal (if ok then status else 1) rest

/-- How `kill` is used. -/
def killUsage : String :=
  "Usage: kill [-s sigspec | -signum | -sigspec] [pid | job]... or\nkill -l [exitstatus]"

/-- `kill`. -/
def kill (words : List Bytes) : Script Nat := do
  let listing (words : List Bytes) : Script Nat := do
    match words with
    | [] => do
      say (lit "0\n" ++ Signal.names.flatMap fun n => lit (n ++ "\n"))
      return 0
    | word :: _ => do
      let n ← number word
      let n := if 128 < n then n - 128 else n
      if 0 < n && n < Signal.limit then do
        say (lit ((Signal.mk n).name ++ "\n"))
        return 0
      else fail (lit "invalid signal number or exit status: " ++ word)
  let sending (signal : Signal) (targets : List Bytes) : Script Nat :=
    if targets.isEmpty then failWith killUsage else killAll signal 0 targets
  match words with
  | [] => failWith killUsage
  | ('-' :: name) :: rest => match Signal.ofText? 1 name with
    | some s => sending s rest
    | none => do
      let (os, rest) ← options "l" "s" words
      let signal ← os.foldlM (fun (found : Option Signal) o =>
        if o.1 == 's' then
          match Signal.ofText? 1 o.2 with
          | some s => pure (some s)
          | none => fail (lit "invalid signal number or name: " ++ o.2)
        else pure found) none
      if os.any fun o => o.1 == 'l' then
        if signal.isSome then failWith killUsage else listing rest
      else sending (signal.getD .terminate) rest
  | words => sending .terminate words

/-- `alias`. -/
def alias_ (words : List Bytes) : Script Nat := do
  let shown (a : Bytes × Bytes) : Bytes := a.1 ++ '=' :: quote a.2 ++ ['\n']
  if words.isEmpty then do
    say ((← get).aliases.flatMap shown)
    return 0
  else words.foldlM (fun status word => do
    match word.drop 1 |>.contains '=' with
    | true => do
      let (name, value) := cutBefore (· == '=') word
      modify fun i => { i with
        aliases := (name, value.drop 1) :: i.aliases.filter fun a => a.1 != name }
      return status
    | false => match (← get).aliases.lookup word with
      | some value => do
        say (shown (word, value))
        return status
      | none => do
        warn (lit "alias: " ++ word ++ lit " not found\n")
        return 1) 0

/-- `unalias`. -/
def unalias (words : List Bytes) : Script Nat := do
  let (os, rest) ← options "a" "" words
  if !os.isEmpty then do
    modify fun i => { i with aliases := [] }
    return 0
  else rest.foldlM (fun status word => do
    match (← get).aliases.lookup word with
    | some _ => do
      modify fun i => { i with aliases := i.aliases.filter fun a => a.1 != word }
      return status
    | none => do
      warn (lit "unalias: " ++ word ++ lit " not found\n")
      return 1) 0

/-- A number as octal digits, at least so many. -/
def octal (width n : Nat) : Bytes :=
  let ds := Nat.toDigits 8 n
  List.replicate (width - ds.length) '0' ++ ds

/-- The rights that a mask leaves, in letters. -/
def maskLetters (mask : Nat) : Bytes :=
  let rights (who : Char) (bits : Nat) : Bytes :=
    who :: '=' :: ((if bits / 4 % 2 == 0 then ['r'] else []) ++
      (if bits / 2 % 2 == 0 then ['w'] else []) ++ if bits % 2 == 0 then ['x'] else [])
  [','].intercalate [rights 'u' (mask / 64 % 8), rights 'g' (mask / 8 % 8), rights 'o' (mask % 8)]

/-- `umask`. -/
def umask (words : List Bytes) : Script Nat := do
  let (os, rest) ← options "S" "" words
  match rest with
  | [] => do
    let mask := (← get).mask
    say ((if os.isEmpty then octal 4 mask else maskLetters mask) ++ ['\n'])
    return 0
  | word :: _ =>
    if (word.head?.map isDigitByte).getD false then
      match Number.digits 8 0 0 word with
      | (n, _, []) => do
        modify fun i => { i with mask := n % 512 }
        return 0
      | _ => fail (lit "Illegal number: " ++ word)
    else fail (lit "Illegal mode: " ++ word)

/-- `times`. -/
def times : Script Nat := do
  say (lit "0m0.000000s 0m0.000000s\n0m0.000000s 0m0.000000s\n")
  return 0

/-- The commands of the interpreter that are special: their failures end the script, and variables set
for them stay set. -/
def specials : List String :=
  [".", ":", "break", "continue", "eval", "exec", "exit", "export", "local", "readonly", "return",
    "set", "shift", "times", "trap", "unset"]

/-- The commands of the interpreter. -/
def names : List String :=
  specials ++
    ["[", "alias", "bg", "cd", "chdir", "command", "echo", "false", "fg", "getopts", "hash", "jobs", "kill",
      "printf", "pwd", "read", "test", "true", "type", "ulimit", "umask", "unalias", "wait"]

/-- Is it a command of the interpreter? -/
def isBuiltin (name : Bytes) : Bool := names.contains (Bytes.literal name)

/-- Is it a special command of the interpreter? -/
def isSpecial (name : Bytes) : Bool := specials.contains (Bytes.literal name)

/-- Where a program is, along a path of folders. -/
def programAt? (s : System) (cwd : Place) (path : Bytes) (name : Bytes) : Except Bool Bytes :=
  -- an error tells whether something was there that cannot be run
  go false (splitBytes ':' path)
where
  /-- look in one folder after the other -/
  go (seen : Bool) : List Bytes → Except Bool Bytes
    | [] => .error seen
    | folder :: rest =>
      let full := if folder.isEmpty then name else folder ++ '/' :: name
      match s.thing cwd full with
      | .ok (.program _, _) => .ok full
      | .ok _ => go true rest
      | .error _ => go seen rest

/-- What a word means as the name of a command. -/
inductive Meaning where
  | keyword
  | aliased (value : Bytes)
  | function
  | builtin (special : Bool)
  | program (path : Bytes) (known : Bool)
  | nothing

/-- The meaning of a word as the name of a command. -/
def meaning (word : Bytes) : Script Meaning := do
  let i ← get
  let s ← system
  if keywords.contains (Bytes.literal word) then return .keyword
  else match i.aliases.lookup word with
    | some v => return .aliased v
    | none =>
      if word.contains '/' then
        match s.thing i.cwd word with
        | .ok _ => return .program word false
        | .error _ => return .nothing
      else if i.functions.any fun f => f.1 == word then return .function
      else if isBuiltin word then return .builtin (isSpecial word)
      else match programAt? s i.cwd ((i.valueOf? "PATH").getD []) word with
        | .ok path => return .program path (i.found.contains word)
        | .error _ => return .nothing

/-- Describe the meaning of a word, at length or not; gives the status. -/
def describe (long : Bool) (word : Bytes) : Script Nat := do
  let put (short : Bytes) (more : Bytes) : Script Nat := do
    say ((if long then word ++ more else short) ++ ['\n'])
    return 0
  match ← meaning word with
  | .keyword => put word (lit " is a shell keyword")
  | .aliased v => put (lit "alias " ++ word ++ '=' :: quote v) (lit " is an alias for " ++ v)
  | .function => put word (lit " is a shell function")
  | .builtin special =>
    put word (lit (if special then " is a special shell builtin" else " is a shell builtin"))
  | .program path known =>
    put path (lit (if known then " is a tracked alias for " else " is ") ++ path)
  | .nothing => do
    if long then say (word ++ lit ": not found\n")
    return 127

/-- `type`. -/
def type (words : List Bytes) : Script Nat :=
  words.foldlM (fun status word => do
    let n ← describe true word
    return if n == 0 then status else n) 0

/-- `hash`. -/
def hash (words : List Bytes) : Script Nat := do
  let (os, rest) ← options "rv" "" words
  let i ← get
  let s ← system
  let path := (i.valueOf? "PATH").getD []
  if !os.isEmpty then do
    set { i with found := [] }
    return 0
  else if rest.isEmpty then do
    say (i.found.flatMap fun n => match programAt? s i.cwd path n with
      | .ok p => p ++ ['\n']
      | .error _ => [])
    return 0
  else rest.foldlM (fun status word => do
    match ← meaning word with
    | .nothing => do
      complain (word ++ lit ": not found")
      return 1
    | .program _ _ => do
      modify fun i => { i with found := if i.found.contains word then i.found else word :: i.found }
      return status
    | _ => return status) 0

/-- `ulimit`. -/
def ulimit : Script Nat := do
  say (lit "unlimited\n")
  return 0

end MergeGate.Shell.Builtin
