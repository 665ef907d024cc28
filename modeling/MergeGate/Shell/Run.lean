/-
Running scripts. A simple command is expanded, its streams are redirected, its variables are set, and
then the function, built-in command or program of its name is run. Parts of a script that need a
process of their own, such as the stages of a pipe, are forked off. The recursion is bounded by fuel,
which a script without endless loops does not use up.
-/
import MergeGate.Assoc
import MergeGate.Shell.Stream

namespace MergeGate.Shell

open Script

/-- What surrounds a command. -/
structure Setting where
  /-- is its status asked for, so that its failure ends nothing? -/
  tested : Bool := false
  /-- is the process over after it? -/
  last : Bool := false

/-- A setting in which something comes afterwards. -/
def Setting.inner (f : Setting) : Setting := { tested := f.tested }

namespace Run

/-- The bytes of a literal. -/
def lit (s : String) : Bytes := Bytes.ofLiteral s

/-- The status that an ending leaves. -/
def statusOf : Ending → Nat
  | .exit n => n
  | .signal s => 128 + s.number

/-- Say what became of a process, if a signal ended it. -/
def mourn : Ending → Script Unit
  | .exit _ => return
  | .signal s =>
    if s == .interrupt || s == .pipe then return else warn (lit (s.text ++ "\n"))

/-- How a process ended, if it has. -/
def endingOf (s : System) (pid : Nat) : Option Ending := (s.process? pid).bind (·.ending)

/-- Wait for processes that belong together; the ending of the last. -/
def await (acc : Ending) : List Nat → Script Ending
  | [] => return acc
  | pid :: rest => do
    waitUntil fun s => !s.lives pid
    let e := (endingOf (← system) pid).getD (.exit 0)
    mourn e
    changeSystem fun s => s.forget pid
    await e rest

/-- Note which processes in the background have ended. -/
def reap : Script Unit := do
  let i ← get
  if i.jobs.isEmpty then return
  else do
    let s ← system
    let jobs := i.jobs.map fun j =>
      { j with processes := j.processes.map fun (pid, e) => (pid, e.or (endingOf s pid)) }
    set { i with jobs }
    let ended := jobs.flatMap fun j => (j.processes.filter fun p => p.2.isSome).map (·.1)
    changeSystem fun s => ended.foldl (fun s pid => s.forget pid) s

/-- Are all processes of a job over? -/
def isOver (j : Job) : Bool := j.processes.all fun p => p.2.isSome

/-- A new job in the background. -/
def addJob (pids : List Nat) : Script Unit :=
  modify fun i =>
    let jobs := i.jobs.filter fun j => !(isOver j && j.waited)
    let number := ((List.range (jobs.length + 1)).find? fun n =>
      !jobs.any fun j => j.number == n + 1).getD jobs.length + 1
    { i with
      jobs := { number, processes := pids.map fun pid => (pid, none) } :: jobs
      lastBackground := pids.getLast? }

/-- What becomes of an interpreter that goes on in a process of its own. -/
def becomePart (background : Bool) (first : Bool) : Script Unit := do
  modify fun i => { i with
    isPart := true
    jobs := []
    traps := i.traps.filter fun t => t.2.isEmpty && t.1 != 0
    kept := [] }
  changeProcess fun p => { p with caught := [], pending := [] }
  if background then
    changeProcess fun p => { p with ignored := [2, 3] ++ p.ignored }
    if first then
      let i ← get
      let (n, s) := (← system).add { device := .nothing, reads := true }
      changeSystem fun _ => s.setStream i.process 0 (some n)

/-- Close a stream. -/
def close (stream : Nat) : Script Unit := do
  let pid := (← get).process
  changeSystem fun s => s.setStream pid stream none

/-- Take one signal off those that wait. -/
def settle (signal : Nat) : Script Unit :=
  changeProcess fun p => { p with pending := p.pending.filter (· != signal) }

/-- After a loop's round, or its test: what is passed over now. -/
def afterRound : Script Skip := do
  let i ← get
  match i.skip with
  | .leaveLoop | .nextRound =>
    if i.skipCount ≤ 1 then do
      set { i with skip := .nothing, skipCount := 0 }
      return i.skip
    else do
      set { i with skipCount := i.skipCount - 1 }
      return .leaveLoop
  | skip => return skip

/-- Does a loop go on after a round? -/
def goesOn : Skip → Bool
  | .nothing | .nextRound => true
  | _ => false

/-- How deep functions may call each other. -/
def maxDepth : Nat := 1000

/-- Wait for jobs in the background, or for a signal about which something is done; false if the
signal came. A job that sends the signal and then ends is not yet noticed. -/
def waitJobs (ended : List Job → Bool) : Script Bool := do
  let pid := (← get).process
  let jobs := (← get).jobs
  let now (s : System) : List Job := jobs.map fun j =>
    { j with processes := j.processes.map fun (n, e) => (n, e.or (endingOf s n)) }
  let signalled (s : System) : Bool := !(((s.process? pid).map (·.pending)).getD []).isEmpty
  waitUntil fun s => ended (now s) || signalled s
  let cut := signalled (← system)
  reap
  return !cut

/-- The status of a wait that a signal cut short. -/
def waitCut : Script Nat := do
  return 128 + ((← pending).getLast?.getD 0)

/-- Wait for single jobs; the status of the last. -/
def waitEach (status : Nat) : List Bytes → Script Nat
  | [] => return status
  | word :: rest => do
    let i ← get
    let job? : Option Job ← if word.head? == some '%' then
        match Builtin.job? i word with
        | some j => pure (some j)
        | none => Builtin.noJob word
      else do
        let n ← Builtin.number word
        pure (i.jobs.find? fun j => (j.processes.getLast?.map (·.1)) == some n)
    match job? with
    | none => waitEach 127 rest
    | some j => do
      let wasOver := isOver j
      if ← waitJobs fun jobs => (jobs.find? fun x => x.number == j.number).any isOver then do
        let i ← get
        let j := ((i.jobs.find? fun x => x.number == j.number).getD j)
        if !wasOver then j.processes.forM fun p => (p.2.map mourn).getD (return)
        modify fun i => { i with jobs := i.jobs.map fun x =>
          if x.number == j.number then { x with waited := true } else x }
        let e := (j.processes.getLast?.bind (·.2)).getD (.exit 0)
        waitEach (statusOf e) rest
      else waitCut

/-- `wait`. -/
def wait (words : List Bytes) : Script Nat := do
  let (_, rest) ← Builtin.options "" "" words
  if rest.isEmpty then
    if ← waitJobs fun jobs => jobs.all isOver then do
      modify fun i => { i with jobs := i.jobs.map fun j => { j with waited := true } }
      return 0
    else waitCut
  else waitEach 127 rest

/-- `jobs`. -/
def jobs : Script Nat := do
  reap
  let i ← get
  let shown := i.jobs.zipIdx.map fun (j, n) =>
    -- a job that is over is forgotten as soon as it has been shown
    let before := (i.jobs.take n).countP fun j => !isOver j
    let sign := if before == 0 then "+" else if before == 1 then "-" else " "
    let what := match (j.processes.getLast?).bind (·.2) with
      | none => "Running"
      | some (.exit 0) => "Done"
      | some (.exit n) => "Done(" ++ toString n ++ ")"
      | some (.signal s) => s.text
    let text := "[" ++ toString j.number ++ "] " ++ sign ++ " " ++ what
    lit (text ++ String.ofList (List.replicate (33 - text.length) ' ') ++ "\n")
  say shown.flatten
  modify fun i => { i with jobs := i.jobs.filter fun j => !isOver j }
  return 0

/-- The command of the interpreter with the given name that runs no other commands. -/
def plainBuiltin (fuel : Nat) (name : String) (words : List Bytes) : Script Nat :=
  match name with
  | ":" | "true" => return 0
  | "false" => return 1
  | "[" => Builtin.test true words
  | "alias" => Builtin.alias_ words
  | "break" => Builtin.leave .leaveLoop words
  | "cd" | "chdir" => Builtin.cd words
  | "continue" => Builtin.leave .nextRound words
  | "echo" => Builtin.echo words
  | "exit" => Builtin.exit words
  | "export" => Builtin.export_ words
  | "bg" | "fg" => do
    match words with
    | [] => failWith "No current job"
    | word :: _ => Builtin.noJob word
  | "getopts" => Builtin.getopts words
  | "hash" => Builtin.hash words
  | "jobs" => jobs
  | "kill" => Builtin.kill words
  | "local" => Builtin.local_ words
  | "printf" => Builtin.printf words
  | "pwd" => Builtin.pwd words
  | "read" => Builtin.read_ fuel words
  | "readonly" => Builtin.readonly words
  | "return" => Builtin.return_ words
  | "set" => Builtin.set_ words
  | "shift" => Builtin.shift words
  | "test" => Builtin.test false words
  | "times" => Builtin.times
  | "trap" => Builtin.trap words
  | "type" => Builtin.type words
  | "ulimit" => Builtin.ulimit
  | "umask" => Builtin.umask words
  | "unalias" => Builtin.unalias words
  | "unset" => Builtin.unset words
  | "wait" => wait words
  | _ => return 0

/-- The name of a simple command, as far as it had to be expanded to be known. -/
structure Named where
  fields : List Bytes
  rest : List Word
  /-- functions do not count -/
  noFunctions : Bool := false
  /-- is the command special? -/
  special : Bool := false
  /-- have options of `command` been seen that ask for a description? -/
  describes : Bool := false

/-- What a name stands for. -/
inductive Callee where
  | nothing
  | function (f : Function)
  | builtin (name : String)
  | program (name : Bytes)

/-- Find what a name stands for. -/
def callee (noFunctions : Bool) (name : Bytes) : Script Callee := do
  let i ← get
  if name.contains '/' then return .program name
  else match if noFunctions then none else i.functions.lookup name with
    | some f => return .function f
    | none =>
      if Builtin.isBuiltin name then return .builtin (Bytes.literal name) else return .program name

/-- Commands whose arguments may be assignments. -/
def assigns : Callee → Bool
  | .builtin "export" | .builtin "readonly" | .builtin "local" | .builtin "alias" => true
  | _ => false

/-- The variables of a new interpreter, from those of its surroundings. -/
def importVariables (s : System) (cwd : Place) (env : List (Bytes × Bytes)) (parent : Nat) :
    List (Bytes × Variable) :=
  let named := env.filter fun v => isName v.1
  let put (vs : List (Bytes × Variable)) (name : String) (v : Variable) : List (Bytes × Variable) :=
    (name.toList, v) :: vs.filter fun x => x.1 != name.toList
  let vs : List (Bytes × Variable) :=
    named.foldl (fun vs (n, v) => (n, { value := some v, exported := true }) ::
      vs.filter fun x => x.1 != n) []
  let defaulted (vs : List (Bytes × Variable)) (name value : String) : List (Bytes × Variable) :=
    if (vs.lookup name.toList).isSome then vs else put vs name { value := some value.toList }
  let shown := Bytes.ofText (Folder.shown cwd)
  let pwd := match named.lookup "PWD".toList with
    | some p => match s.thing cwd p with
      | .ok (.folder, place) => if place == cwd && p.head? == some '/' then p else shown
      | _ => shown
    | none => shown
  let vs := defaulted vs "PATH" Interpreter.defaultPath
  let vs := defaulted vs "PS1" "# "
  let vs := defaulted vs "PS2" "> "
  let vs := defaulted vs "PS4" "+ "
  let vs := put vs "IFS" { value := some Interpreter.defaultSeparators }
  let vs := put vs "OPTIND" { value := some ['1'] }
  let vs := put vs "PPID" { value := some (Bytes.ofNat parent) }
  put vs "PWD" { value := some pwd, exported := true }

/-- How a script is given to an interpreter. -/
inductive Source where
  | text (bs : Bytes)
  | file (name : Bytes)
  | input

/-- What the words behind an interpreter's name ask for. -/
structure Call where
  source : Source
  name : Option Bytes := none
  parameters : List Bytes := []

/-- Read the options of an interpreter; what is left are operands. Gives whether a text is expected,
whether the script comes from the input, and the operands. As much fuel as words is enough. -/
def callOptions (fuel : Nat) (text input : Bool) (words : List Bytes) :
    Script (Bool × Bool × List Bytes) :=
  match fuel, words with
  | 0, _ | _, [] => return (text, input, words)
  | fuel + 1, word :: rest =>
    match word with
    | ['-'] | ['-', '-'] => return (text, input, rest)
    | '-' :: cs => do
      let rest ← Builtin.setLetters true (cs.filter fun c => c != 'c' && c != 'l') rest
      callOptions fuel (text || cs.contains 'c') (input || cs.contains 's') rest
    | '+' :: cs => do
      let rest ← Builtin.setLetters false cs rest
      callOptions fuel text input rest
    | _ => return (text, input, words)

/-- Read the words behind an interpreter's name. -/
def call (words : List Bytes) : Script Call := do
  let (text, input, rest) ← callOptions (words.length + 1) false false words
  if text then
    match rest with
    | [] => failWith "-c requires an argument"
    | script :: name :: parameters => return { source := .text script, name, parameters }
    | [script] => return { source := .text script }
  else if input then return { source := .input, parameters := rest }
  else match rest with
    | [] => return { source := .input }
    | name :: parameters => return { source := .file name, name, parameters }

/-- The text of a script in a file. -/
def scriptText (name : Bytes) : Script Bytes := do
  let i ← get
  let s ← system
  match s.source i.cwd name with
  | .ok (.file p) => return Bytes.ofRaw (s.content p)
  | .ok _ => return []
  | .error r => fail (Stream.openFault name r false)

mutual

/-- Run a command. -/
def tree (fuel : Nat) (f : Setting) (t : Option Tree) : Script Nat :=
  match fuel with
  | 0 => stop .spent
  | fuel + 1 => do
    let noexec ← option "noexec"
    let (status, checked) ← match if noexec then none else t with
      | none => pure (0, false)
      | some t => do
        traps fuel
        node fuel f t
    traps fuel
    if checked && status != 0 && (← option "errexit") then stop .ended
    else if f.last then stop .ended
    else return (← get).status

/-- Run a command by its kind; its status, and whether its failure may end the script. -/
def node (fuel : Nat) (f : Setting) (t : Tree) : Script (Nat × Bool) :=
  match fuel with
  | 0 => stop .spent
  | fuel + 1 => do
    let settled (status : Nat) : Script (Nat × Bool) := do
      setStatus status
      return (status, false)
    let checked (x : Script Nat) : Script (Nat × Bool) := do
      let status ← x
      setStatus status
      return (status, !f.tested)
    match t with
    | .simple line assignments arguments redirections =>
      checked (simple fuel f line assignments arguments redirections)
    | .pipe background stages => checked (pipe fuel f background stages)
    | .subshell line body redirections => checked (subshell fuel f line body redirections)
    | .background line body redirections => checked (background fuel line body redirections)
    | .redirected line body redirections => do
      modify fun i => { i with line }
      let targets ← aims fuel redirections []
      Stream.pushKept
      let status ← match ← attempt (Stream.redirect (output fuel) true targets) with
        | .ok _ => tree fuel f.inner (some body)
        | .error .failed => pure 2
        | .error why => stop why
      Stream.popKept false
      settled status
    | .negated body => do
      let status ← tree fuel { tested := true } (some body)
      settled (if (← get).skip != .nothing then status else if status == 0 then 1 else 0)
    | .both first second => do
      let status ← tree fuel { tested := true } (some first)
      if status != 0 || (← get).skip != .nothing then return (status, false)
      else settled (← tree fuel f (some second))
    | .either first second => do
      let status ← tree fuel { tested := true } (some first)
      if status == 0 || (← get).skip != .nothing then return (status, false)
      else settled (← tree fuel f (some second))
    | .sequence first second => do
      let status ← tree fuel f.inner (some first)
      if (← get).skip != .nothing then return (status, false)
      else settled (← tree fuel f (some second))
    | .choice test body otherwise => do
      let status ← tree fuel { tested := true } (some test)
      if (← get).skip != .nothing then return (status, false)
      else if status == 0 then settled (← tree fuel f body)
      else if otherwise.isSome then settled (← tree fuel f otherwise)
      else settled 0
    | .loop until_ test body => do
      modify fun i => { i with loops := i.loops + 1 }
      let status ← loop fuel f.inner until_ test body 0
      modify fun i => { i with loops := i.loops - 1 }
      settled status
    | .each line name words body => do
      modify fun i => { i with line }
      let fields ← Expansion.allFields (output fuel) [] words
      modify fun i => { i with loops := i.loops + 1 }
      let status ← rounds fuel f.inner name body 0 fields
      modify fun i => { i with loops := i.loops - 1 }
      settled status
    | .cases line word arms => do
      modify fun i => { i with line }
      let text ← Expansion.text (output fuel) { tilde := true } word
      settled (← cases fuel f text arms)
    | .function line name body => do
      modify fun i => { i with
        functions := (name, ⟨line, body⟩) :: i.functions.filter fun x => x.1 != name }
      settled 0

/-- Rounds of a loop as long as its test says so. -/
def loop (fuel : Nat) (f : Setting) ( until_ : Bool) (test : Tree) (body : Option Tree)
    (status : Nat) : Script Nat :=
  match fuel with
  | 0 => stop .spent
  | fuel + 1 => do
    let answer ← tree fuel { tested := true } (some test)
    match ← afterRound with
    | .nothing =>
      if (answer == 0) == until_ then return status
      else do
        let status ← tree fuel f body
        let skip ← afterRound
        if goesOn skip then loop fuel f until_ test body status else return status
    | .nextRound => loop fuel f until_ test body status
    | .function => return answer
    | _ => return status

/-- Rounds of a loop over texts. -/
def rounds (fuel : Nat) (f : Setting) (name : Bytes) (body : Option Tree) (status : Nat)
    (texts : List Bytes) : Script Nat :=
  match fuel, texts with
  | 0, _ => stop .spent
  | _, [] => return status
  | fuel + 1, text :: rest => do
    assign name text false
    let status ← tree fuel f body
    let skip ← afterRound
    if goesOn skip then rounds fuel f name body status rest else return status

/-- The first arm that fits a text. -/
def cases (fuel : Nat) (f : Setting) (text : Bytes) (arms : List (List Word × Option Tree)) :
    Script Nat :=
  match fuel, arms with
  | 0, _ => stop .spent
  | _, [] => return 0
  | fuel + 1, (patterns, body) :: rest => do
    if ← fitsOne fuel text patterns then
      match body with
      | none => return 0
      | some b => tree fuel f (some b)
    else cases fuel f text rest

/-- Does one of the patterns fit a text? -/
def fitsOne (fuel : Nat) (text : Bytes) (patterns : List Word) : Script Bool :=
  match fuel, patterns with
  | 0, _ => stop .spent
  | _, [] => return false
  | fuel + 1, p :: rest => do
    let signs ← Expansion.pattern (output fuel) p
    if Pattern.fits signs text then return true else fitsOne fuel text rest

/-- The targets of redirections. -/
def aims (fuel : Nat) (redirections : List Redirection) (acc : List (Nat × Stream.Target)) :
    Script (List (Nat × Stream.Target)) :=
  match fuel, redirections with
  | 0, _ => stop .spent
  | _, [] => return acc.reverse
  | fuel + 1, r :: rest => do
    let aim ← match r with
      | .file stream direction name => do
        let text ← Expansion.text (output fuel) { tilde := true } name
        pure (stream, Stream.Target.file direction text)
      | .same stream other => pure (stream, .same other)
      | .sameNamed stream name => do
        let bad : Script (Nat × Stream.Target) := do
          modify fun i => { i with line := i.readTo }
          failWith "Syntax error: Bad fd number"
        match ← Expansion.fields (output fuel) name with
        | ['-'] :: _ => pure (stream, .same none)
        | [d] :: _ =>
          if isDigitByte d then pure (stream, .same (some (d.toNat - 48))) else bad
        | _ => bad
      | .here stream document => do
        pure (stream, .text (((← get).documents[document]?).getD []))
    aims fuel rest (aim :: acc)

/-- The output of commands inside a word. -/
def output (fuel : Nat) (t : Option Tree) : Script Bytes :=
  match fuel with
  | 0 => stop .spent
  | fuel + 1 => do
    match t with
    | none => return []
    | some t => do
      let (r, w, s) := (← system).addPipe []
      let i ← get
      -- the pipe is held at two numbers of its own until the child has taken them over
      let reading := Stream.freeNumber s i.process
      let s := s.setStream i.process reading (some r)
      let writing := Stream.freeNumber s i.process
      changeSystem fun _ => s.setStream i.process writing (some w)
      let pid ← fork (process fuel do
        becomePart false false
        let pid := (← get).process
        changeSystem fun s => ((s.setStream pid reading none).setStream pid writing none).setStream
          pid 1 (some w)
        discard (tree fuel { last := true } (some t)))
      close writing
      let bs ← readAll fuel reading []
      close reading
      let e ← await (.exit 0) [pid]
      modify fun i => { i with substituted := statusOf e }
      return (bs.toOption.getD []).filter fun c => c.toNat != 0

/-- A process that runs commands to their end, and then the trap for the end. -/
def process (fuel : Nat) (x : Script Unit) : Script Ending :=
  match fuel with
  | 0 => stop .spent
  | fuel + 1 => do
    let why := match ← attempt x with
      | .ok _ => Stop.ended
      | .error why => why
    leaveOff why
    let i ← get
    set { i with savedStatus := some i.status }
    let why ← match i.trap? 0 with
      | none => pure why
      | some action => do
        modify fun i => { i with traps := i.traps.filter fun t => t.1 != 0 }
        match ← attempt (script fuel {} action) with
        | .ok _ => do
          modify fun i => { i with skip := .functionAsIs }
          pure Stop.ended
        | .error why => pure why
    leaveOff why
    return .exit ((← get).status % 256)

/-- Settle the status when commands were left. -/
def leaveOff (why : Stop) : Script Unit := do
  modify fun i =>
    let status := match i.savedStatus with
      | some s => if why == .asked || i.skip == .functionAsIs then s else i.status
      | none => i.status
    { i with status, savedStatus := none, skip := .nothing, loops := 0, command := none }
  Stream.unwind 0

/-- Do what is to be done about the signals that have come. -/
def traps (fuel : Nat) : Script Unit :=
  match fuel with
  | 0 => stop .spent
  | fuel + 1 => do
    let waiting ← pending
    if waiting.isEmpty then return
    else do
      let before := (← get).savedStatus
      let status := before.getD (← get).status
      modify fun i => { i with savedStatus := some status }
      trapsOf fuel status (waiting.mergeSort fun a b => a ≤ b)
      modify fun i => { i with savedStatus := before }

/-- Do what is to be done about signals, unless commands are passed over. -/
def trapsOf (fuel : Nat) (status : Nat) (signals : List Nat) : Script Unit :=
  match fuel, signals with
  | 0, _ => stop .spent
  | _, [] => return
  | fuel + 1, signal :: rest => do
    if (← get).skip != .nothing then return
    else do
      settle signal
      if let some action := (← get).trap? signal then
        discard (script fuel {} action)
        if (← get).skip != .function then setStatus status
      trapsOf fuel status rest

/-- Run a text. -/
def script (fuel : Nat) (f : Setting) (text : Bytes) : Script Nat :=
  match fuel with
  | 0 => stop .spent
  | fuel + 1 => do
    let i ← get
    let status ← lines fuel f (.start text i.aliases i.documents) 0
    modify fun j => { j with readTo := i.readTo }
    return status

/-- Run the lines of a text. -/
def lines (fuel : Nat) (f : Setting) (p : Parsing) (status : Nat) : Script Nat :=
  match fuel with
  | 0 => stop .spent
  | fuel + 1 => do
    let i ← get
    match { p with aliases := i.aliases, documents := i.documents }.readLine with
    | .error fault => do
      modify fun i => { i with line := fault.line }
      failWith fault.message
    | .ok (listed, p) =>
      if listed.atEnd then return status
      else do
        modify fun i => { i with documents := p.documents, readTo := p.line }
        let n ← tree fuel { f with last := f.last && p.atEnd } listed.tree
        let status := if listed.tree.isSome then n else status
        if (← get).skip != .nothing then return status
        else lines fuel f p status

/-- The stages of a pipe, each with the open file of its input, if it comes from another stage; their
processes are collected. -/
def stages (fuel : Nat) (background : Bool) (input : Option Nat) (pids : List Nat)
    (trees : List Tree) : Script (List Nat) :=
  match fuel, trees with
  | 0, _ => stop .spent
  | _, [] => return pids.reverse
  | fuel + 1, t :: rest => do
    let i ← get
    let isLast := rest.isEmpty
    let reading ← if isLast then pure none else do
      let (r, w, s) := (← system).addPipe []
      let reading := Stream.freeNumber s i.process
      let s := s.setStream i.process reading (some r)
      let writing := Stream.freeNumber s i.process
      changeSystem fun _ => s.setStream i.process writing (some w)
      pure (some (reading, writing))
    let pid ← fork (process fuel do
      becomePart background pids.isEmpty
      let pid := (← get).process
      if let some (reading, _) := reading then close reading
      if let some n := input then
        changeSystem fun s => (s.setStream pid 0 (s.stream? pid n)).setStream pid n none
      if let some (_, writing) := reading then
        changeSystem fun s => (s.setStream pid 1 (s.stream? pid writing)).setStream pid writing none
      discard (tree fuel { last := true } (some t)))
    if let some n := input then close n
    if let some (_, writing) := reading then close writing
    stages fuel background (reading.map (·.1)) (pid :: pids) rest

/-- A pipe. -/
def pipe (fuel : Nat) (_f : Setting) (background : Bool) (trees : List Tree) : Script Nat :=
  match fuel with
  | 0 => stop .spent
  | fuel + 1 => do
    let pids ← stages fuel background none [] trees
    if background then do
      addJob pids
      return 0
    else return statusOf (← await (.exit 0) pids)

/-- Commands in a process of their own. -/
def subshell (fuel : Nat) (f : Setting) (line : Nat) (body : Option Tree)
    (redirections : List Redirection) : Script Nat :=
  match fuel with
  | 0 => stop .spent
  | fuel + 1 => do
    modify fun i => { i with line }
    let targets ← aims fuel redirections []
    if f.last && !(← get).hasTraps then do
      Stream.redirect (output fuel) false targets
      tree fuel f body
    else do
      let pid ← fork (process fuel do
        becomePart false true
        Stream.redirect (output fuel) false targets
        discard (tree fuel { f with last := true } body))
      return statusOf (← await (.exit 0) [pid])

/-- A command that is not waited for. -/
def background (fuel : Nat) (line : Nat) (body : Tree) (redirections : List Redirection) :
    Script Nat :=
  match fuel with
  | 0 => stop .spent
  | fuel + 1 => do
    modify fun i => { i with line }
    let targets ← aims fuel redirections []
    let pid ← fork (process fuel do
      becomePart true true
      Stream.redirect (output fuel) false targets
      discard (tree fuel { last := true } (some body)))
    addJob [pid]
    return 0

/-- Expand words until there is a field. -/
def firstField (fuel : Nat) (words : List Word) : Script (List Bytes × List Word) :=
  match fuel, words with
  | 0, _ => stop .spent
  | _, [] => return ([], [])
  | fuel + 1, w :: rest => do
    match ← Expansion.fields (output fuel) w with
    | [] => firstField fuel rest
    | fields => return (fields, rest)

/-- Find the name of a simple command; `command` before it is passed over. -/
def named (fuel : Nat) (n : Named) (first : Bool) : Script Named :=
  match fuel with
  | 0 => stop .spent
  | fuel + 1 => do
    let n ← match n.fields with
      | [] => do
        let (fields, rest) ← firstField fuel n.rest
        pure { n with fields, rest }
      | _ => pure n
    match n.fields with
    | [] => return n
    | name :: fields => do
      match ← callee n.noFunctions name with
      | .builtin "command" => do
        match ← commandOptions fuel fields n.rest with
        | some (fields, rest) => named fuel { n with fields, rest, noFunctions := true } false
        | none => return { n with describes := true }
      | .builtin name =>
        return { n with special := first && Builtin.specials.contains name }
      | _ => return n

/-- The words behind `command` and its options; nothing if there is no command behind them, or it is
to be described. -/
def commandOptions (fuel : Nat) (fields : List Bytes) (words : List Word) :
    Script (Option (List Bytes × List Word)) :=
  match fuel with
  | 0 => stop .spent
  | fuel + 1 => do
    let (fields, words) ← match fields with
      | [] => firstField fuel words
      | _ => pure (fields, words)
    match fields with
    | [] => return none
    | ['-', '-'] :: rest => do
      match rest with
      | [] => do
        let (fields, words) ← firstField fuel words
        return if fields.isEmpty then none else some (fields, words)
      | rest => return some (rest, words)
    | ('-' :: c :: cs) :: rest =>
      if (c :: cs).all (· == 'p') then commandOptions fuel rest words
      else return none
    | fields => return some (fields, words)

/-- The words behind the name, as fields; assignments among them are not split if the command takes
such. -/
def furtherFields (fuel : Nat) (assigning : Bool) (acc : List (List Bytes)) (words : List Word) :
    Script (List Bytes) :=
  match fuel, words with
  | 0, _ => stop .spent
  | _, [] => return acc.reverse.flatten
  | fuel + 1, w :: rest => do
    let fields ← if assigning && w.assignment?.isSome then do
        let text ← Expansion.text (output fuel) { assignment := true } w
        pure [text]
      else Expansion.fields (output fuel) w
    furtherFields fuel assigning (fields :: acc) rest

/-- Set variables one after the other: for the command alone, or for good. Gives what was set. -/
def assignAll (fuel : Nat) (alone exported : Bool) (acc : List Bytes) (words : List Word) :
    Script (List Bytes) :=
  match fuel, words with
  | 0, _ => stop .spent
  | _, [] => return acc.reverse
  | fuel + 1, w :: rest => do
    let text ← Expansion.text (output fuel) { assignment := true } w
    let (name, value) := Builtin.atEquals text
    if alone then keepLocal name
    assign name (value.getD []) (alone || exported)
    assignAll fuel alone exported (text :: acc) rest

/-- A simple command. -/
def simple (fuel : Nat) (f : Setting) (line : Nat) (assignments arguments : List Word)
    (redirections : List Redirection) : Script Nat :=
  match fuel with
  | 0 => stop .spent
  | fuel + 1 => do
    modify fun i => { i with line, substituted := 0 }
    let depth := (← get).locals.length
    let n ← named fuel { fields := [], rest := arguments } true
    let what ← match n.fields with
      | [] => pure Callee.nothing
      | name :: _ => callee n.noFunctions name
    let further ← furtherFields fuel (assigns what) [] n.rest
    let fields := n.fields ++ further
    let isExec := match what with
      | .builtin "exec" => true
      | _ => false
    let alone := !fields.isEmpty && !n.special
    if alone then pushLocals
    let errors := (← system).stream? (← get).process 2
    let targets ← aims fuel redirections []
    Stream.pushKept
    let keptDepth := (← get).kept.length
    let status ← match ← attempt (Stream.redirect (output fuel) true targets) with
      | .error .failed => do
        setStatus 2
        if n.special then stop .failed
        pure 2
      | .error why => stop why
      | .ok _ => do
        let set ← assignAll fuel alone (isExec && 1 < fields.length) [] assignments
        if ← option "xtrace" then
          let ps4 := ((← get).valueOf? "PS4").getD []
          let text := ps4 ++ [' '].intercalate (set ++ fields) ++ ['\n']
          if let some n := errors then discard (writeAll (text.length + 1) n text)
        perform fuel f n what fields
    Stream.unwind keptDepth
    Stream.popKept isExec
    popLocals depth
    return status

/-- Run what a simple command stands for. -/
def perform (fuel : Nat) (f : Setting) (n : Named) (what : Callee) (fields : List Bytes) :
    Script Nat :=
  match fuel with
  | 0 => stop .spent
  | fuel + 1 => do
    match what with
    | .nothing => do
      let status := (← get).substituted
      setStatus status
      reap
      return status
    | .function body => do
      function fuel f body (fields.drop 1)
      reap
      return (← get).status
    | .builtin name => do
      match ← builtin fuel f name (fields.head?.getD []) (fields.drop 1) with
      | none => do
        reap
        return (← get).status
      | some why =>
        if why == .failed && !n.special then do
          reap
          return (← get).status
        else stop why
    | .program name => program fuel f name fields

/-- Call a function. -/
def function (fuel : Nat) (f : Setting) (body : Function) (arguments : List Bytes) : Script Unit :=
  match fuel with
  | 0 => stop .spent
  | fuel + 1 => do
    let before ← get
    if maxDepth ≤ before.functionDepth then
      failWith ("Maximum function recursion depth (" ++ toString maxDepth ++ ") reached")
    set { before with
      parameters := arguments
      functionDepth := before.functionDepth + 1
      loops := 0
      optionWord := 1
      optionByte := none }
    let result ← attempt (tree fuel f.inner (some body.body))
    modify fun i => { i with
      parameters := before.parameters
      functionDepth := before.functionDepth
      loops := before.loops
      optionWord := before.optionWord
      optionByte := before.optionByte
      skip := if i.skip == .function || i.skip == .functionAsIs then .nothing else i.skip }
    match result with
    | .ok _ => return
    | .error why => stop why

/-- Run a command of the interpreter. Its status is set; gives why it stopped, if it did. -/
def builtin (fuel : Nat) (f : Setting) (name : String) (shown : Bytes) (words : List Bytes) :
    Script (Option Stop) :=
  match fuel with
  | 0 => stop .spent
  | fuel + 1 => do
    let outer := (← get).command
    modify fun i => { i with command := some shown }
    let result ← attempt do
      let status ← match name with
        | "eval" => eval fuel f words
        | "." => source fuel words
        | "exec" => exec fuel words
        | "command" => describing words
        | name => plainBuiltin fuel name words
      match ← flush with
      | none => setStatus status
      | some _ => do
        complain (shown ++ lit ": I/O error")
        setStatus (max status 1)
    modify fun i => { i with command := outer, buffer := [] }
    match result with
    | .ok _ => return none
    | .error why => return some why

/-- `command`, when it describes a command or has none. -/
def describing (words : List Bytes) : Script Nat := do
  let (os, rest) ← Builtin.options "pvV" "" words
  match rest, (os.filter fun o => o.1 != 'p').getLast? with
  | word :: _, some (c, _) => Builtin.describe (c == 'V') word
  | _, _ => return 0

/-- `eval`. -/
def eval (fuel : Nat) (f : Setting) (words : List Bytes) : Script Nat :=
  match fuel with
  | 0 => stop .spent
  | fuel + 1 =>
    if words.isEmpty then return 0 else script fuel f.inner ([' '].intercalate words)

/-- `.`, which runs the commands in a file. -/
def source (fuel : Nat) (words : List Bytes) : Script Nat :=
  match fuel with
  | 0 => stop .spent
  | fuel + 1 => do
    let (_, rest) ← Builtin.options "" "" words
    match rest with
    | [] => return 0
    | name :: _ => do
      let i ← get
      let s ← system
      let path ← if name.contains '/' then pure name
        else
          let folders := splitBytes ':' ((i.valueOf? "PATH").getD [])
          let full (folder : Bytes) : Bytes := if folder.isEmpty then name else folder ++ '/' :: name
          match (folders.map full).find? fun p => match s.thing i.cwd p with
            | .ok (.file _, _) => true
            | _ => false with
          | some p => pure p
          | none => fail (name ++ lit ": not found")
      let text ← scriptText path
      modify fun i => { i with command := some path }
      let status ← script fuel {} text
      modify fun i => { i with
        skip := if i.skip == .function || i.skip == .functionAsIs then .nothing else i.skip }
      return status

/-- `exec`, which puts a program in the place of the interpreter. -/
def exec (fuel : Nat) (words : List Bytes) : Script Nat :=
  match fuel with
  | 0 => stop .spent
  | fuel + 1 => do
    let (_, rest) ← Builtin.options "" "" words
    match rest with
    | [] => return 0
    | name :: _ => do
      match ← located name with
      | .ok path => become fuel path rest
      | .error (message, status) => do
        complain message
        setStatus status
        stop .ended

/-- Where the program with a name is, or the complaint that it cannot be run, with its status. -/
def located (name : Bytes) : Script (Except (Bytes × Nat) Bytes) := do
  let i ← get
  let s ← system
  let denied : Bytes × Nat := (name ++ lit ": Permission denied", 126)
  let missing : Bytes × Nat := (name ++ lit ": not found", 127)
  if name.contains '/' then
    match s.thing i.cwd name with
    | .ok (.program _, _) => return .ok name
    | .ok _ => return .error denied
    | .error r =>
      return .error (if r.isMissing then missing else if r == .denied then denied
        else (name ++ lit (": " ++ r.words), 127))
  else match Builtin.programAt? s i.cwd ((i.valueOf? "PATH").getD []) name with
    | .ok path => return .ok path
    | .error seen => return .error (if seen then denied else missing)

/-- Become a program: the process ends with it. -/
def become {α : Type} (fuel : Nat) (path : Bytes) (words : List Bytes) : Script α :=
  match fuel with
  | 0 => stop .spent
  | fuel + 1 => do
    changeProcess fun p => { p with
      caught := []
      pending := []
      streams := p.streams.filter fun x => x.1 < Stream.firstKept }
    let name := Bytes.literal ((path.reverse.takeWhile (· != '/')).reverse)
    let e ← if name == "sh" || name == "dash" then interpret fuel (words.head?.getD []) (words.drop 1)
      else do
        let code ← Utility.run fuel name (Bytes.toText (words.head?.getD [])) (words.drop 1)
        pure (Ending.exit code)
    let pid := (← get).process
    changeSystem fun s => s.finish pid e
    stop .dead

/-- Run a program, in a process of its own unless nothing comes after it. -/
def program (fuel : Nat) (f : Setting) (name : Bytes) (words : List Bytes) : Script Nat :=
  match fuel with
  | 0 => stop .spent
  | fuel + 1 => do
    let refused (message : Bytes) (status : Nat) : Script Nat := do
      complain message
      setStatus status
      return status
    match ← located name with
    | .error (message, status) =>
      -- a name that is looked for along the path counts as unknown, whatever was found
      if !name.contains '/' then refused message 127
      else if f.last && !(← get).hasTraps then do
        discard (refused message status)
        stop .ended
      else refused message status
    | .ok path => do
      if !name.contains '/' then
        modify fun i => { i with
          found := if i.found.contains name then i.found else name :: i.found }
      if f.last && !(← get).hasTraps then become fuel path words
      else do
        let pid ← fork do
          changeProcess fun p => { p with pending := [] }
          become fuel path words
        let status := statusOf (← await (.exit 0) [pid])
        reap
        return status

/-- A new interpreter in this process, with the words behind its name. -/
def interpret (fuel : Nat) (name : Bytes) (words : List Bytes) : Script Ending :=
  match fuel with
  | 0 => stop .spent
  | fuel + 1 => do
    let i ← get
    let s ← system
    set ({ process := i.process
           root := i.process
           parentProcess := i.parentProcess
           name
           cwd := i.cwd
           line := 0
           bindings := importVariables s i.cwd i.environment i.parentProcess } : Interpreter)
    process fuel do
      let c ← call words
      modify fun i => { i with parameters := c.parameters }
      match c.source with
      | .text bs => do
        modify fun i => { i with name := c.name.getD i.name }
        discard (script fuel { last := true } bs)
      | .file path => do
        let text ← scriptText path
        modify fun i => { i with name := c.name.getD i.name }
        discard (script fuel {} text)
      | .input => do
        match ← readAll fuel 0 [] with
        | .ok text => discard (script fuel {} text)
        | .error _ => return

end

end Run

/-- A process that waits for its turn. -/
structure Sleeper where
  pid : Nat
  wake : Wake
  resume : System → Life

/-- The system with the processes that wait for their turns, and signals that will come from outside
as soon as every process waits. -/
structure Machine where
  system : System
  sleepers : List Sleeper := []
  signals : List Signal := []

namespace Machine

/-- Take in what a process did: it is over, waits or has started another, which waits for its turn. -/
def absorb (fuel : Nat) (m : Machine) (pid : Nat) (life : Life) : Machine :=
  match fuel with
  | 0 => m
  | fuel + 1 => match life with
    | .ended system => { m with system }
    | .waits wake system resume =>
      { m with system, sleepers := m.sleepers ++ [⟨pid, wake, resume⟩] }
    | .forks system child start resume =>
      let sleeper : Sleeper := ⟨child, { ready := fun _ => true }, start⟩
      absorb fuel { m with sleepers := m.sleepers ++ [sleeper] } pid (resume system)

/-- Processes take turns until the script is over: its own process has ended, and no other can write
to its output any more. When all wait, signals from outside come first, and then time passes. -/
def run (fuel : Nat) (main : Nat) (m : Machine) : Machine :=
  match fuel with
  | 0 => m
  | fuel + 1 =>
    let m := { m with system := m.system.deliver }
    let m := { m with sleepers := m.sleepers.filter fun x => m.system.lives x.pid }
    if !m.system.lives main && !m.system.outputIsOpen then m
    else match m.sleepers.find? fun x => x.wake.ready m.system with
      | some x =>
        let rest := m.sleepers.eraseP fun y => y.pid == x.pid
        run fuel main (absorb fuel { m with sleepers := rest } x.pid (x.resume m.system))
      | none => match m.signals with
        | s :: rest =>
          run fuel main { m with
            system := if m.system.lives main then m.system.sendAll s else m.system
            signals := rest }
        | [] => match (m.sleepers.filterMap (·.wake.time)).min? with
          | some t => run fuel main { m with system := { m.system with clock := max m.system.clock t } }
          | none => m

end Machine

/-- How a process ended. -/
structure Outcome where
  /-- the exit status, or the negative number of the signal that ended it -/
  code : Int
  output : List UInt8
  folder : Folder

/-- How far a script may run. -/
def fuelOfScript : Nat := 1000000

/-- The name under which the interpreter of scripts is called. -/
def interpreterName : Bytes := "/bin/sh".toList

/-- The number of a script's process. -/
def firstProcess : Nat := 4711

/-- Run a script in a folder, with the signals that arrive as soon as it waits. -/
def perform (f : Folder) (cwd : Place) (env : Assoc String) (signals : List Signal)
    (script : String) : Outcome :=
  let pid := firstProcess
  let s : System := { folder := f, nextProcess := pid + 1 }
  let (none_, s) := s.add { device := .nothing, reads := true }
  let (out, s) := s.add { device := .output, writes := true }
  let p : Process := { parent := 1, streams := [(0, none_), (1, out), (2, out)] }
  let s := { s with processes := [(pid, p)] }
  let i : Interpreter :=
    { process := pid, root := pid, parentProcess := 1, name := interpreterName, cwd
      bindings := env.map fun v =>
        (Bytes.ofText v.1, { value := some (Bytes.ofText v.2), exported := true }) }
  let life (s : System) : Life :=
    (Run.interpret fuelOfScript interpreterName [['-', 'c'], Bytes.ofText script] i s).toLife pid
  let m : Machine := { system := s, sleepers := [⟨pid, { ready := fun _ => true }, life⟩], signals }
  let s := (m.run fuelOfScript pid).system
  let code : Int := match (s.process? pid).bind (·.ending) with
    | some (.exit n) => n
    | some (.signal signal) => -signal.number
    | none => 2
  ⟨code, Bytes.toRaw s.output.toList, s.folder⟩

end MergeGate.Shell
