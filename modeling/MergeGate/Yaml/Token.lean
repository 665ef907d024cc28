/-
Tokens of a YAML text. Indentation has been turned into start and end tokens.
-/
namespace MergeGate.Yaml

/-- A token. -/
inductive Token where
  /-- a version directive with its two numbers -/
  | version (major minor : Nat)
  /-- a directive that gives a tag handle its meaning -/
  | tagHandle (handle expansion : String)
  /-- any other directive -/
  | directive
  | documentStart
  | documentEnd
  | blockSequenceStart
  | blockMappingStart
  | blockEnd
  | flowSequenceStart
  | flowSequenceEnd
  | flowMappingStart
  | flowMappingEnd
  | blockEntry
  | flowEntry
  | key
  | value
  | aliased (name : String)
  | anchor (name : String)
  | tag (handle : Option String) (suffix : String)
  /-- a scalar; a plain one is not quoted, so its text decides what it is -/
  | scalar (text : String) (plain : Bool)
  deriving DecidableEq, Repr

end MergeGate.Yaml
