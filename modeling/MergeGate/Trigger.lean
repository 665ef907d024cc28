/-
The event that started a run: its kind, the ref it happened on, and the branch. The branch is the
part of the ref after `refs/heads/`, or the whole ref, unless it is given.
-/
import MergeGate.Text.Blank

namespace MergeGate

/-- The kinds of event that start a run. -/
inductive EventKind where
  | push
  | pullRequest
  deriving DecidableEq, Repr

namespace EventKind

/-- The name of an event kind. -/
def name : EventKind → String
  | push => "push"
  | pullRequest => "pull_request"

/-- All kinds, in the order in which they are listed to the user. -/
def all : List EventKind := [push, pullRequest]

/-- The kind with the given name. -/
def ofName? (s : String) : Option EventKind := all.find? (·.name == s)

end EventKind

/-- The event that started a run. -/
structure Trigger where
  event : EventKind
  branch : String
  ref : String
  deriving DecidableEq, Repr

namespace Trigger

/-- The branch that a ref names. -/
def branchOf (ref : String) : String := (Text.afterStart? "refs/heads/" ref).getD ref

/-- A trigger on a ref, the branch read off the ref unless it is given. -/
def ofRef (event : EventKind) (ref : String) (branch? : Option String) : Trigger :=
  ⟨event, branch?.getD (branchOf ref), ref⟩

/-- The parts of a trigger under their names, by name. -/
def fields (t : Trigger) : List (String × String) :=
  [("branch", t.branch), ("event_kind", t.event.name), ("ref", t.ref)]

end Trigger

/-- The parts of a trigger that a condition can ask for. -/
inductive Field where
  | eventKind
  | branch
  | ref
  deriving DecidableEq, Repr

namespace Field

/-- All fields, in the order in which they are listed to the user. -/
def all : List Field := [eventKind, branch, ref]

/-- The name of a field. -/
def name : Field → String
  | eventKind => "event_kind"
  | branch => "branch"
  | ref => "ref"

/-- The names a field may have in an expression. -/
def aliases : List (String × Field) :=
  [("event_kind", eventKind), ("branch", branch), ("ref", ref),
    ("github.event_name", eventKind), ("github.ref_name", branch), ("github.ref", ref)]

/-- The field with the given name. -/
def ofName? (s : String) : Option Field := all.find? (·.name == s)

/-- The field that an expression names. -/
def ofAlias? (s : String) : Option Field := aliases.lookup s

/-- The text of a field in a trigger. -/
def read (t : Trigger) : Field → String
  | eventKind => t.event.name
  | branch => t.branch
  | ref => t.ref

@[simp] theorem ofName?_name (f : Field) : ofName? f.name = some f := by cases f <;> rfl

end Field

end MergeGate
