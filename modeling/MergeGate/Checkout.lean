/-
Facts about the local checkout, asked of the version control program: the branch that is checked
out, the commit, the root and the address of a remote. The program may be missing or may fail, it may
not be there to be run by everybody, and what it prints need not be text.
-/
import MergeGate.Folder.Basic
import MergeGate.Rejection

namespace MergeGate.Checkout

/-- How the program fails. -/
inductive Fault where
  | exited (code : Int)
  | notInstalled
  /-- it cannot be run, though it is not missing -/
  | unusable (why : Incident)
  /-- what it prints is no text -/
  | garbled (u : Text.Undecodable)
  deriving DecidableEq, Repr

/-- The failure as something nobody foresaw; that there is no checkout, or no program, is foreseen. -/
def Fault.incident? : Fault → Option Incident
  | exited _ | notInstalled => none
  | unusable why => some why
  | garbled u => some ⟨Text.Undecodable.kind, u.message⟩

/-- A call of the program. -/
structure Call where
  args : List String
  cwd : Option String
  deriving DecidableEq, Repr

/-- A question about the checkout: an answer or a fault, and the calls it took. -/
structure Answer (α : Type) where
  result : Except Fault α
  calls : List Call

/-- The program: the bytes that it prints for given arguments. -/
abbrev Program := Call → Except Fault (List UInt8)

/-- The text of what the program prints. -/
def textOf (bytes : List UInt8) : Except Fault String :=
  match Text.decode bytes with
  | .ok cs => .ok (String.ofList (Text.unifyLineFeeds cs))
  | .error u => .error (.garbled u)

/-- Run the program once; blanks around what it prints are dropped. -/
def ask (git : Program) (args : List String) (cwd : Option String) : Answer String :=
  let call : Call := ⟨args, cwd⟩
  ⟨(git call >>= textOf).map Text.stripped, [call]⟩

/-- The root of the checkout. -/
def root (git : Program) (cwd : Option String) : Answer Path :=
  let a := ask git ["rev-parse", "--show-toplevel"] cwd
  ⟨a.result.map Path.ofText, a.calls⟩

/-- The commit that is checked out. -/
def commit (git : Program) (cwd : Option String) : Answer String :=
  ask git ["rev-parse", "HEAD"] cwd

/-- The branch that is checked out; none when a commit is checked out without a branch. -/
def branch (git : Program) (cwd : Option String) : Answer (Option String) :=
  let a := ask git ["symbolic-ref", "--short", "HEAD"] cwd
  let result := match a.result with
    | .ok b => .ok (some b)
    | .error (.exited _) => .ok none
    | .error fault => .error fault
  ⟨result, a.calls⟩

/-- The ref that is checked out: that of the branch, or else the commit. -/
def ref (git : Program) (cwd : Option String) : Answer String :=
  let b := branch git cwd
  match b.result with
  | .error fault => ⟨.error fault, b.calls⟩
  | .ok name? =>
    match name?.filter (· != "") with
    | some name => ⟨.ok ("refs/heads/" ++ name), b.calls⟩
    | none =>
      let c := commit git cwd
      ⟨c.result, b.calls ++ c.calls⟩

/-- The address of a remote. -/
def remoteUrl (git : Program) (remote : String) (cwd : Option String) : Answer String :=
  ask git ["remote", "get-url", remote] cwd

/-- What the program prints, as far as the file tells that names the checked-out branch or holds the
commit; without that file there is no checkout. -/
def ofHead (head : Option String) : Program := fun call =>
  match head with
  | none => .error (.exited 128)
  | some text =>
    match Text.afterStart? "ref: refs/heads/" text with
    | some name =>
      if call.args = ["symbolic-ref", "--short", "HEAD"] then .ok (Folder.bytesOf name)
      else .error (.exited 128)
    | none =>
      if call.args = ["rev-parse", "HEAD"] then .ok (Folder.bytesOf text) else .error (.exited 128)

end MergeGate.Checkout
