/-
The programs that scripts call: `cat`, `basename`, `sleep` and a few more. Each runs in a process of
its own, reads and writes streams, and gives an exit code.
-/
import MergeGate.Shell.Expansion
import MergeGate.Shell.Format
import MergeGate.Shell.Quotation
import MergeGate.Shell.Question

namespace MergeGate.Shell.Utility

open Script

/-- Complain under a program's name. -/
def report (program : String) (message : Bytes) : Script Unit :=
  warn (Bytes.ofText (program ++ ": ") ++ message ++ ['\n'])

/-- Complain under a program's name, and point to its help. -/
def misuse (program : String) (message : Bytes) : Script Nat := do
  report program message
  warn (Bytes.ofText ("Try '" ++ program ++ " --help' for more information.\n"))
  return 1

/-- An option that a program does not know. -/
def unknownOption (program : String) (word : Bytes) (letter : Char) : Script Nat :=
  if word.take 2 == ['-', '-'] then
    misuse program (Bytes.ofText "unrecognized option '" ++ word.takeWhile (· != '=') ++ ['\''])
  else misuse program (Bytes.ofText "invalid option -- '" ++ [letter, '\''])

/-- Write to the output of a program; the exit code if that is not possible. -/
def put (program : String) (bs : Bytes) : Script Nat := do
  match ← write 1 bs with
  | none => return 0
  | some r => do
    report program (Bytes.ofText ("write error: " ++ r.words))
    return 1

/-- How `cat` shows what it reads. -/
structure Showing where
  numbers : Bool := false
  numbersOfFilled : Bool := false
  squeeze : Bool := false
  ends : Bool := false
  tabs : Bool := false
  controls : Bool := false

/-- Is everything shown as it is? -/
def Showing.isPlain (s : Showing) : Bool :=
  !(s.numbers || s.numbersOfFilled || s.squeeze || s.ends || s.tabs || s.controls)

/-- Where `cat` stands in its output. -/
structure Progress where
  line : Nat := 0
  atStart : Bool := true
  /-- how many empty lines came last -/
  empty : Nat := 0

/-- A byte as it is shown. -/
def Showing.byte (s : Showing) (c : Char) : Bytes :=
  let low (n : Nat) : Bytes :=
    if n < 32 then ['^', Char.ofNat (n + 64)]
    else if n == 127 then ['^', '?']
    else [Char.ofNat n]
  if c == '\t' then if s.tabs then ['^', 'I'] else [c]
  else if !s.controls then [c]
  else if c.toNat < 128 then low c.toNat
  else ['M', '-'] ++ low (c.toNat - 128)

/-- The number of a line. -/
def lineNumber (n : Nat) : Bytes :=
  let ds := Bytes.ofNat n
  List.replicate (6 - ds.length) ' ' ++ ds ++ ['\t']

/-- Bytes as they are shown, reversed, behind others. -/
def Showing.bytes (s : Showing) (p : Progress) (acc : Bytes) : Bytes → Progress × Bytes
  | [] => (p, acc)
  | c :: rest =>
    let isEmptyLine := p.atStart && c == '\n'
    if isEmptyLine && s.squeeze && 1 ≤ p.empty then s.bytes { p with empty := p.empty + 1 } acc rest
    else
      let numbered := p.atStart && (if s.numbersOfFilled then c != '\n' else s.numbers)
      let line := if numbered then p.line + 1 else p.line
      let acc := if numbered then (lineNumber line).reverse ++ acc else acc
      if c == '\n' then
        let acc := '\n' :: (if s.ends then '$' :: acc else acc)
        s.bytes { line, atStart := true, empty := if isEmptyLine then p.empty + 1 else 0 } acc rest
      else s.bytes { line, atStart := false, empty := 0 } ((s.byte c).reverse ++ acc) rest

/-- An option of `cat`. -/
def Showing.with? (s : Showing) (c : Char) : Option Showing :=
  match c with
  | 'n' => some { s with numbers := true }
  | 'b' => some { s with numbers := true, numbersOfFilled := true }
  | 's' => some { s with squeeze := true }
  | 'E' => some { s with ends := true }
  | 'T' => some { s with tabs := true }
  | 'v' => some { s with controls := true }
  | 'A' => some { s with controls := true, ends := true, tabs := true }
  | 'e' => some { s with controls := true, ends := true }
  | 't' => some { s with controls := true, tabs := true }
  | 'u' => some s
  | _ => none

/-- The letter of a long option of `cat`. -/
def catLetter? (word : Bytes) : Option Char :=
  match String.ofList word with
  | "--number" => some 'n'
  | "--number-nonblank" => some 'b'
  | "--squeeze-blank" => some 's'
  | "--show-ends" => some 'E'
  | "--show-tabs" => some 'T'
  | "--show-nonprinting" => some 'v'
  | "--show-all" => some 'A'
  | _ => none

/-- What is wrong with an option. -/
inductive BadOption where
  | unknown (word : Bytes) (letter : Char)
  | noValue (letter : Char)

/-- The options and operands of a program. -/
structure Arguments where
  options : List (Char × Bytes) := []
  operands : List Bytes := []

/-- The letters of a word of options; one of `withValue` takes the rest of the word, or the next word.
Gives the options and the words that are left. -/
def letters (known withValue : List Char) (word : Bytes) :
    Bytes → List Bytes → Except BadOption (List (Char × Bytes) × List Bytes)
  | [], rest => .ok ([], rest)
  | c :: more, rest =>
    if withValue.contains c then
      match more, rest with
      | [], value :: rest => .ok ([(c, value)], rest)
      | [], [] => .error (.noValue c)
      | value, rest => .ok ([(c, value)], rest)
    else if known.contains c then do
      let (os, rest) ← letters known withValue word more rest
      .ok ((c, []) :: os, rest)
    else .error (.unknown word c)

/-- The options and operands among words. Operands may stand before options if `mixed`; long options
are given their letters by `long`. As much fuel as words is enough. -/
def arguments (known withValue : List Char) (long : Bytes → Option (Char × Bytes)) (mixed : Bool)
    (fuel : Nat) (words : List Bytes) : Except BadOption Arguments :=
  match fuel, words with
  | 0, _ | _, [] => .ok {}
  | fuel + 1, word :: rest =>
    match word with
    | ['-', '-'] => .ok { operands := rest }
    | '-' :: '-' :: _ => match long word with
      | some o => do
        let more ← arguments known withValue long mixed fuel rest
        .ok { more with options := o :: more.options }
      | none => .error (.unknown word '-')
    | '-' :: c :: cs => do
      let (os, rest) ← letters known withValue word (c :: cs) rest
      let more ← arguments known withValue long mixed fuel rest
      .ok { more with options := os ++ more.options }
    | operand =>
      if mixed then do
        let more ← arguments known withValue long mixed fuel rest
        .ok { more with operands := operand :: more.operands }
      else .ok { operands := operand :: rest }

/-- Complain about an option. -/
def BadOption.report (program : String) : BadOption → Script Nat
  | unknown word letter => unknownOption program word letter
  | noValue letter =>
    misuse program (Bytes.ofText "option requires an argument -- '" ++ [letter, '\''])

/-- Copy a stream to the output, shown in the given way; gives the exit code. -/
def copy (fuel : Nat) (program : String) (showing : Showing) (name : Bytes) (stream : Nat) (p : Progress) :
    Script (Nat × Progress) :=
  match fuel with
  | 0 => stop .spent
  | fuel + 1 => do
    match ← read stream Pipe.capacity false with
    | .ok [] => return (0, p)
    | .ok bs => do
      let (p, shown) := if showing.isPlain then (p, bs)
        else
          let (p, acc) := showing.bytes p [] bs
          (p, acc.reverse)
      match ← put program shown with
      | 0 => copy fuel program showing name stream p
      | code => return (code, p)
    | .error r => do
      report program (Quotation.named name ++ Bytes.ofText (": " ++ r.words))
      return (1, p)

/-- The number of the stream through which a program reads a file that it opens. -/
def ownStream : Nat := 9999

/-- The file that a stream reads or writes, with the position. -/
def fileOf (stream : Nat) : Script (Option (Place × Nat)) := do
  let s ← system
  let n? := s.stream? (← get).process stream
  return (n?.bind fun n => s.opened[n]?).bind fun o => match o.device with
    | .file p => some (p, o.position)
    | _ => none

/-- Copy a stream, unless it reads the file that the output goes to. -/
def copyStream (fuel : Nat) (program : String) (showing : Showing) (name : Bytes) (stream : Nat) (p : Progress) :
    Script (Nat × Progress) := do
  match ← fileOf stream, ← fileOf 1 with
  | some (a, position), some (b, _) =>
    if a == b && position < ((← system).content a).length then do
      report program (Quotation.named name ++ Bytes.ofText ": input file is output file")
      return (1, p)
    else copy fuel program showing name stream p
  | _, _ => copy fuel program showing name stream p

/-- Copy files one after the other. -/
def copyFiles (fuel : Nat) (program : String) (showing : Showing) (p : Progress) (code : Nat) :
    List Bytes → Script Nat
  | [] => return code
  | ['-'] :: rest => do
    let (c, p) ← copyStream fuel program showing ['-'] 0 p
    copyFiles fuel program showing p (max c code) rest
  | name :: rest => do
    let s ← system
    let i ← get
    match s.source i.cwd name with
    | .error r => do
      report program (Quotation.named name ++ Bytes.ofText (": " ++ r.words))
      copyFiles fuel program showing p 1 rest
    | .ok device => do
      let (n, s) := s.add { device, reads := true }
      changeSystem fun _ => s.setStream i.process ownStream (some n)
      let (c, p) ← copyStream fuel program showing name ownStream p
      changeSystem fun s => s.setStream i.process ownStream none
      copyFiles fuel program showing p (max c code) rest

/-- The `cat` program. -/
def cat (fuel : Nat) (program : String) (words : List Bytes) : Script Nat := do
  match arguments "nbsETvAetu".toList [] (fun w => (catLetter? w).map fun c => (c, [])) true
    (words.length + 1) words with
  | .error e => e.report program
  | .ok a => do
    let showing := a.options.foldl (fun s o => (s.with? o.1).getD s) ({} : Showing)
    let s ← system
    let i ← get
    if (s.stream? i.process 1).isNone then do
      report program (Bytes.ofText "standard output: Bad file descriptor")
      return 1
    else do
      let operands := if a.operands.isEmpty then [['-']] else a.operands
      let code ← copyFiles fuel program showing {} 0 operands
      if operands.contains ['-'] && (s.stream? i.process 0).isNone then do
        report program (Bytes.ofText "closing standard input: Bad file descriptor")
        return 1
      else return code

/-- The last name of a path, and without a suffix. -/
def baseName (suffix path : Bytes) : Bytes :=
  let trimmed := (path.reverse.dropWhile (· == '/')).reverse
  let name := (trimmed.reverse.takeWhile (· != '/')).reverse
  if path.isEmpty then []
  else if trimmed.isEmpty then ['/']
  else if suffix.length < name.length && suffix.isSuffixOf name then
    name.take (name.length - suffix.length)
  else name

/-- The long options of `basename`. -/
def baseNameLong (word : Bytes) : Option (Char × Bytes) :=
  let (name, value) := cutBefore (· == '=') word
  match String.ofList name with
  | "--multiple" => some ('a', [])
  | "--zero" => some ('z', [])
  | "--suffix" => some ('s', value.drop 1)
  | _ => none

/-- The `basename` program. -/
def basename (program : String) (words : List Bytes) : Script Nat := do
  match arguments ['a', 'z'] ['s'] baseNameLong false (words.length + 1) words with
  | .error e => e.report program
  | .ok a => do
    let suffix := ((a.options.filter fun o => o.1 == 's').getLast?).map (·.2)
    let many := suffix.isSome || a.options.any fun o => o.1 == 'a'
    let ending : Char := if a.options.any fun o => o.1 == 'z' then Char.ofNat 0 else '\n'
    match a.operands with
    | [] => misuse program (Bytes.ofText "missing operand")
    | operands =>
      if many then
        put program (operands.flatMap fun p => baseName (suffix.getD []) p ++ [ending])
      else match operands with
        | _ :: _ :: extra :: _ => misuse program (Bytes.ofText "extra operand " ++ Quotation.marked extra)
        | path :: rest => put program (baseName (rest.head?.getD []) path ++ [ending])
        | [] => return 1

/-- A length of time in millionths of a second: a number, perhaps with a unit. -/
def duration? (word : Bytes) : Option Nat :=
  let r := Format.readFloat word
  let scale? : Option Float := match r.rest with
    | [] | ['s'] => some 1
    | ['m'] => some 60
    | ['h'] => some 3600
    | ['d'] => some 86400
    | _ => none
  if !r.any || r.value < 0 || r.value.isNaN then none
  else scale?.map fun k =>
    let t := r.value * k * 1000000
    if t < 1e15 then t.toUInt64.toNat else 1000000000000000

/-- The `sleep` program. -/
def sleep (program : String) (words : List Bytes) : Script Nat := do
  match arguments [] [] (fun _ => none) true (words.length + 1) words with
  | .error e => e.report program
  | .ok a =>
    if a.operands.isEmpty then misuse program (Bytes.ofText "missing operand")
    else match a.operands.filter fun w => (duration? w).isNone with
      | [] => do
        let total := (a.operands.filterMap duration?).foldl (· + ·) 0
        waitFor ((← system).clock + total) fun _ => false
        return 0
      | bad => do
        bad.dropLast.forM fun w =>
          report program (Bytes.ofText "invalid time interval " ++ Quotation.marked w)
        misuse program (Bytes.ofText "invalid time interval " ++ Quotation.marked (bad.getLast?.getD []))

/-- The options of the `echo` program at the start of words: is there a line feed at the end, and have
backslashes a meaning? -/
def echoOptions (lineFeed escapes : Bool) : List Bytes → Bool × Bool × List Bytes
  | [] => (lineFeed, escapes, [])
  | word :: rest => match word with
    | '-' :: c :: cs =>
      if (c :: cs).all fun l => l == 'n' || l == 'e' || l == 'E' then
        let escapes := (c :: cs).foldl (fun e l => if l == 'e' then true else if l == 'E' then false else e)
          escapes
        echoOptions (lineFeed && !(c :: cs).contains 'n') escapes rest
      else (lineFeed, escapes, word :: rest)
    | _ => (lineFeed, escapes, word :: rest)

/-- The `echo` program. -/
def echo (program : String) (words : List Bytes) : Script Nat :=
  let (lineFeed, escapes, words) := echoOptions true false words
  let text := if escapes then Format.echoWords lineFeed words
    else [' '].intercalate words ++ if lineFeed then ['\n'] else []
  put program text

/-- The `printf` program. -/
def printf (program : String) (words : List Bytes) : Script Nat := do
  match words with
  | [] => misuse program (Bytes.ofText "missing operand")
  | format :: rest => do
    let r := Format.print format rest
    r.complaints.forM fun m => report program m
    let code ← put program r.output
    match r.fault with
    | none => return if r.complaints.isEmpty then code else 1
    | some m => do
      report program m
      return 1

/-- What is known of the file at a path. -/
def facts (s : System) (cwd : Place) (path : Bytes) : Option Question.Facts :=
  match s.thing cwd path with
  | .error _ => none
  | .ok (thing, place) =>
    let changed := (s.folder.entries.findIdx fun e => e.1 == place)
    let usable := !s.folder.bars place
    some (match thing with
      | .folder =>
        { isFolder := true, usable, executable := usable, size := 4096, changed, identity := place }
      | .file bytes =>
        { isFolder := false, usable, executable := false, size := bytes.length, changed, identity := place }
      | .program _ => { isFolder := false, executable := true, size := 1, identity := place }
      | .nothing =>
        { isFolder := false, isDevice := true, executable := false, size := 0, identity := place })

/-- The `test` program, which wants a closing bracket if it is called by the opening one. -/
def test (program : String) (bracket : Bool) (words : List Bytes) : Script Nat := do
  let s ← system
  let i ← get
  let answer (words : List Bytes) : Script Nat :=
    match Question.answer (facts s i.cwd) words with
    | .ok b => return if b then 0 else 1
    | .error m => do
      report program m
      return 2
  if !bracket then answer words
  else if words.getLast? == some [']'] then answer words.dropLast
  else do
    report program (Bytes.ofText "missing " ++ Quotation.marked [']'])
    return 2

/-- Run a program, which complains under the name by which it was called. -/
def run (fuel : Nat) (name program : String) (words : List Bytes) : Script Nat :=
  match name with
  | "cat" => cat fuel program words
  | "basename" => basename program words
  | "sleep" => sleep program words
  | "echo" => echo program words
  | "printf" => printf program words
  | "test" => test program false words
  | "[" => test program true words
  | "true" => return 0
  | _ => return 1

end MergeGate.Shell.Utility
