/-
Signals by number and by name.
-/
import MergeGate.Shell.Bytes

namespace MergeGate.Shell

/-- A signal. -/
structure Signal where
  number : Nat
  deriving DecidableEq, Repr

namespace Signal

/-- The signal that asks a process to end. -/
def terminate : Signal := ⟨15⟩

/-- The signal that ends a process at once. -/
def kill : Signal := ⟨9⟩

/-- The signal that a terminal sends to interrupt a process. -/
def interrupt : Signal := ⟨2⟩

/-- The signal that a terminal sends to end a process. -/
def quit : Signal := ⟨3⟩

/-- The signal of a process that writes where nobody reads. -/
def pipe : Signal := ⟨13⟩

/-- The names of the signals, from the first on. -/
def names : List String :=
  ["HUP", "INT", "QUIT", "ILL", "TRAP", "ABRT", "BUS", "FPE", "KILL", "USR1", "SEGV", "USR2",
    "PIPE", "ALRM", "TERM", "16", "CHLD", "CONT", "STOP", "TSTP", "TTIN", "TTOU", "URG", "XCPU",
    "XFSZ", "VTALRM", "PROF", "WINCH", "IO", "PWR", "SYS", "32", "33", "RTMIN", "RTMIN+1",
    "RTMIN+2", "RTMIN+3", "RTMIN+4", "RTMIN+5", "RTMIN+6", "RTMIN+7", "RTMIN+8", "RTMIN+9",
    "RTMIN+10", "RTMIN+11", "RTMIN+12", "RTMIN+13", "RTMIN+14", "RTMIN+15", "RTMAX-14", "RTMAX-13",
    "RTMAX-12", "RTMAX-11", "RTMAX-10", "RTMAX-9", "RTMAX-8", "RTMAX-7", "RTMAX-6", "RTMAX-5",
    "RTMAX-4", "RTMAX-3", "RTMAX-2", "RTMAX-1", "RTMAX"]

/-- What became of a process that a signal ended, in words. -/
def words : List String :=
  ["Hangup", "Interrupt", "Quit", "Illegal instruction", "Trace/breakpoint trap", "Aborted",
    "Bus error", "Floating point exception", "Killed", "User defined signal 1",
    "Segmentation fault", "User defined signal 2", "Broken pipe", "Alarm clock", "Terminated",
    "Stack fault", "Child exited", "Continued", "Stopped (signal)", "Stopped", "Stopped (tty input)",
    "Stopped (tty output)", "Urgent I/O condition", "CPU time limit exceeded",
    "File size limit exceeded", "Virtual timer expired", "Profiling timer expired",
    "Window changed", "I/O possible", "Power failure", "Bad system call"]

/-- One more than the greatest number of a signal. -/
def limit : Nat := 65

/-- The name of a signal; the zeroth stands for the end of a script. -/
def name (s : Signal) : String :=
  if s.number = 0 then "EXIT" else (names[s.number - 1]?).getD (toString s.number)

/-- What becomes of a process that the signal ends. -/
def text (s : Signal) : String :=
  match words[s.number - 1]? with
  | some t => t
  | none =>
    if 34 ≤ s.number && s.number < limit then "Real-time signal " ++ toString (s.number - 34)
    else "Unknown signal " ++ toString s.number

/-- Is the signal of no effect on a process that does nothing about it? -/
def isHarmless (s : Signal) : Bool := [17, 18, 19, 20, 21, 22, 23, 28].contains s.number

/-- Can nothing be done about the signal? -/
def isSovereign (s : Signal) : Bool := s.number = 9 || s.number = 19

/-- The signal with the given number. -/
def ofDigits? (t : Bytes) : Option Signal :=
  if !t.isEmpty && t.all isDigitByte && natOfDigits t < limit then some ⟨natOfDigits t⟩ else none

/-- The signal with the given number or name, in any case of its letters; `least` is the number of
the first one that may be named. -/
def ofText? (least : Nat) (t : Bytes) : Option Signal :=
  match ofDigits? t with
  | some s => some s
  | none =>
    let upper := String.ofList (t.map Char.toUpper)
    ((List.range limit).find? fun n => least ≤ n && (Signal.mk n).name == upper).map Signal.mk

end Signal

end MergeGate.Shell
