/-
Workflows from YAML texts. A text that is no YAML is refused like any other bad document; a scalar
that does not mean what it says, such as a date that does not exist, is a fault of its own.
-/
import MergeGate.Document.Workflow
import MergeGate.Yaml.Build

namespace MergeGate.Document

/-- Why a text gives no workflow. -/
inductive Fault where
  | rejected (rejection : Rejection)
  | unreadable (fault : Yaml.Fault)

/-- The kind of the failure, as it is reported. -/
def Fault.kind : Fault → String
  | rejected r => r.cause.kind
  | unreadable fault => fault.kind

/-- What went wrong, in words. -/
def Fault.message : Fault → String
  | rejected r => r.text
  | unreadable fault => fault.message

/-- The workflow that a YAML text declares; `source` names the text in messages. -/
def ofYaml (source text : String) : Except Fault Workflow :=
  match Yaml.load (Text.unifyLineFeeds text.toList) with
  | .error .malformed => .error (.rejected ⟨.malformed source, none⟩)
  | .error fault => .error (.unreadable fault)
  | .ok v => (toWorkflow source v).mapError .rejected

end MergeGate.Document
