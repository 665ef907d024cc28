/-
The nodes of a YAML document. Tokens are put together to scalars, sequences and mappings, each with
a number; a collection holds the numbers of its nodes, so an alias is the number of what its anchor
names, and may lead back to a collection around it. A text holds at most one document.
-/
import MergeGate.Assoc
import MergeGate.Yaml.Resolve
import MergeGate.Yaml.Scan

namespace MergeGate.Yaml

/-- A node of a document; nodes inside it are given by their numbers. -/
inductive Node where
  | scalar (tag : Tag) (text : String)
  | sequence (tag : Tag) (items : List Nat)
  | mapping (tag : Tag) (entries : List (Nat × Nat))

/-- The tokens still to come, the nodes so far, and the anchors and tag handles known. -/
structure Parser where
  scanner : Scanner
  nodes : Array Node := #[]
  anchors : Assoc Nat := []
  handles : Assoc String := []

/-- Reading tokens, unless they are at fault. -/
abbrev Parse := StateT Parser (Except Fault)

namespace Parser

/-- The document is at fault. -/
def malformed {α : Type} : Parse α := throw .malformed

/-- The next token. -/
def peek? : Parse (Option Token) := do
  let p ← get
  let (t, scanner) ← p.scanner.next
  set { p with scanner }
  return t

/-- Past the next token. -/
def skip : Parse Unit :=
  modify fun p => { p with scanner := { p.scanner with taken := p.scanner.taken + 1 } }

/-- Does one of the given tokens come next? -/
def sees (ts : List Token) : Parse Bool := do
  match ← peek? with
  | some t => return ts.contains t
  | none => return false

/-- Add a node. -/
def add (n : Node) : Parse Nat := do
  let p ← get
  set { p with nodes := p.nodes.push n }
  return p.nodes.size

/-- Change a node that was added before. -/
def change (i : Nat) (n : Node) : Parse Unit :=
  modify fun p => { p with nodes := p.nodes.setIfInBounds i n }

/-- A node that was left out. -/
def missing : Parse Nat := add (.scalar .null "")

/-- The tag before a node. -/
def tagToken? : Parse (Option (Option String × String)) := do
  match ← peek? with
  | some (.tag h s) => skip; return some (h, s)
  | _ => return none

/-- The anchor before a node. -/
def anchorToken? : Parse (Option String) := do
  match ← peek? with
  | some (.anchor a) => skip; return some a
  | _ => return none

/-- The tag and anchor before a node, in either order. -/
def properties : Parse (Option (Option String × String) × Option String) := do
  match ← anchorToken? with
  | some a => return (← tagToken?, some a)
  | none => match ← tagToken? with
    | some t => return (some t, ← anchorToken?)
    | none => return (none, none)

/-- The full name of a tag. -/
def tagName : Option (Option String × String) → Parse (Option String)
  | none => return none
  | some (none, suffix) => return some suffix
  | some (some handle, suffix) => do
    match (← get).handles.lookup handle with
    | some expansion => return some (expansion ++ suffix)
    | none => malformed

/-- The tag of a scalar: a plain one without a tag, and any with the bare tag, is what its text
says. -/
def scalarTag (name : Option String) (text : String) (plain : Bool) : Tag :=
  match name with
  | none => if plain then resolve text else .text
  | some n => if n = "!" then resolve text else .ofName n

/-- The tag of a collection. -/
def collectionTag (name : Option String) (default : Tag) : Tag :=
  match name with
  | none => default
  | some n => if n = "!" then default else .ofName n

/-- Add a node under its anchor, which may be given only once. -/
def addAnchored (anchor : Option String) (n : Node) : Parse Nat := do
  match anchor with
  | none => add n
  | some a => do
    if ((← get).anchors.lookup a).isSome then malformed
    let i ← add n
    modify fun p => { p with anchors := p.anchors.put a i }
    return i

/-- A sequence, whose anchor is known to its items. -/
def sequence (name anchor : Option String) (items : Parse (List Nat)) : Parse Nat := do
  let tag := collectionTag name .sequence
  let i ← addAnchored anchor (.sequence tag [])
  change i (.sequence tag (← items))
  return i

/-- A mapping, whose anchor is known to its entries. -/
def mapping (name anchor : Option String) (entries : Parse (List (Nat × Nat))) : Parse Nat := do
  let tag := collectionTag name .mapping
  let i ← addAnchored anchor (.mapping tag [])
  change i (.mapping tag (← entries))
  return i

/-- What is being read: a node of a block collection, with or without sequences that are not
indented, or a node of a flow collection. -/
inductive Context where
  | block
  | blockOrIndentless
  | flow
  deriving DecidableEq, Repr

mutual

/-- Read a node. -/
def node (fuel : Nat) (context : Context) : Parse Nat :=
  match fuel with
  | 0 => malformed
  | fuel + 1 => do
    match ← peek? with
    | some (.aliased a) => do
      skip
      match (← get).anchors.lookup a with
      | some i => return i
      | none => malformed
    | _ => do
      let (tag, anchor) ← properties
      let name ← tagName tag
      match ← peek? with
      | some (.scalar text plain) => do
        skip
        addAnchored anchor (.scalar (scalarTag name text plain) text)
      | some .flowSequenceStart => sequence name anchor (do skip; flowItems fuel true)
      | some .flowMappingStart => mapping name anchor (do skip; flowEntries fuel true)
      | t =>
        if context = .blockOrIndentless ∧ t = some .blockEntry then
          sequence name anchor (indentlessItems fuel)
        else if context ≠ .flow ∧ t = some .blockSequenceStart then
          sequence name anchor (do skip; blockItems fuel)
        else if context ≠ .flow ∧ t = some .blockMappingStart then
          mapping name anchor (do skip; blockEntries fuel)
        else if anchor.isSome || name.isSome then
          addAnchored anchor (.scalar (scalarTag name "" true) "")
        else malformed

/-- Read a node, unless one of the given tokens comes next. -/
def nodeUnless (fuel : Nat) (context : Context) (ts : List Token) : Parse Nat :=
  match fuel with
  | 0 => malformed
  | fuel + 1 => do if ← sees ts then missing else node fuel context

/-- Items of an indented block sequence. -/
def blockItems (fuel : Nat) : Parse (List Nat) :=
  match fuel with
  | 0 => malformed
  | fuel + 1 => do
    if ← sees [.blockEntry] then
      skip
      let i ← nodeUnless fuel .block [.blockEntry, .blockEnd]
      let more ← blockItems fuel
      return i :: more
    else if ← sees [.blockEnd] then
      skip
      return []
    else malformed

/-- Items of a block sequence that is not indented. -/
def indentlessItems (fuel : Nat) : Parse (List Nat) :=
  match fuel with
  | 0 => malformed
  | fuel + 1 => do
    if ← sees [.blockEntry] then
      skip
      let i ← nodeUnless fuel .block [.blockEntry, .key, .value, .blockEnd]
      let more ← indentlessItems fuel
      return i :: more
    else return []

/-- The value of an entry of a block mapping. -/
def blockValue (fuel : Nat) : Parse Nat :=
  match fuel with
  | 0 => malformed
  | fuel + 1 => do
    if ← sees [.value] then
      skip
      nodeUnless fuel .blockOrIndentless [.key, .value, .blockEnd]
    else missing

/-- Entries of a block mapping. -/
def blockEntries (fuel : Nat) : Parse (List (Nat × Nat)) :=
  match fuel with
  | 0 => malformed
  | fuel + 1 => do
    if ← sees [.key] then
      skip
      let k ← nodeUnless fuel .blockOrIndentless [.key, .value, .blockEnd]
      let v ← blockValue fuel
      let more ← blockEntries fuel
      return (k, v) :: more
    else if ← sees [.blockEnd] then
      skip
      return []
    else malformed

/-- The value of an entry inside a flow collection that ends with the given token. -/
def flowValue (fuel : Nat) (ending : Token) : Parse Nat :=
  match fuel with
  | 0 => malformed
  | fuel + 1 => do
    if ← sees [.value] then
      skip
      nodeUnless fuel .flow [.flowEntry, ending]
    else missing

/-- Items of a flow sequence; a key makes an item a mapping of one entry. -/
def flowItems (fuel : Nat) (first : Bool) : Parse (List Nat) :=
  match fuel with
  | 0 => malformed
  | fuel + 1 => do
    if ← sees [.flowSequenceEnd] then
      skip
      return []
    if !first then
      if ← sees [.flowEntry] then skip else malformed
    if ← sees [.flowSequenceEnd] then
      skip
      return []
    else if ← sees [.key] then
      skip
      let i ← add (.mapping .mapping [])
      let k ← nodeUnless fuel .flow [.value, .flowEntry, .flowSequenceEnd]
      let v ← flowValue fuel .flowSequenceEnd
      change i (.mapping .mapping [(k, v)])
      let more ← flowItems fuel false
      return i :: more
    else
      let i ← node fuel .flow
      let more ← flowItems fuel false
      return i :: more

/-- Entries of a flow mapping; what is no key has no value. -/
def flowEntries (fuel : Nat) (first : Bool) : Parse (List (Nat × Nat)) :=
  match fuel with
  | 0 => malformed
  | fuel + 1 => do
    if ← sees [.flowMappingEnd] then
      skip
      return []
    if !first then
      if ← sees [.flowEntry] then skip else malformed
    if ← sees [.flowMappingEnd] then
      skip
      return []
    else if ← sees [.key] then
      skip
      let k ← nodeUnless fuel .flow [.value, .flowEntry, .flowMappingEnd]
      let v ← flowValue fuel .flowMappingEnd
      let more ← flowEntries fuel false
      return (k, v) :: more
    else
      let k ← node fuel .flow
      let v ← missing
      let more ← flowEntries fuel false
      return (k, v) :: more

end

/-- The tag handles that every document knows. -/
def standardHandles : Assoc String := [("!", "!"), ("!!", standardTags)]

/-- Read directives: one version at most, and each tag handle once. -/
def directives (fuel : Nat) (version : Bool) (handles : Assoc String) : Parse (Assoc String) :=
  match fuel with
  | 0 => malformed
  | fuel + 1 => do
    match ← peek? with
    | some (.version major _) => do
      skip
      if version || major ≠ 1 then malformed else directives fuel true handles
    | some (.tagHandle handle expansion) => do
      skip
      if (handles.lookup handle).isSome then malformed
      else directives fuel version (handles.put handle expansion)
    | some .directive => do
      skip
      directives fuel version handles
    | _ => return handles

/-- Handles given by directives, then the standard ones that were not given. -/
def withStandard (handles : Assoc String) : Assoc String := standardHandles.putAll handles

/-- The content of a document, when its start has been passed. -/
def content (fuel : Nat) : Parse Nat := do
  match ← peek? with
  | none => missing
  | some .documentStart | some .documentEnd | some .directive | some (.version ..)
  | some (.tagHandle ..) => missing
  | _ => node fuel .block

/-- Nothing but document ends may follow. -/
def finish (fuel : Nat) : Parse Unit :=
  match fuel with
  | 0 => malformed
  | fuel + 1 => do
    match ← peek? with
    | none => return
    | some .documentEnd => do
      skip
      finish fuel
    | _ => malformed

/-- The only document of a text; none if there is no document in it. -/
def document (fuel : Nat) : Parse (Option Nat) := do
  match ← peek? with
  | none => return none
  | some .documentStart | some .directive | some (.version ..) | some (.tagHandle ..) => do
    let handles ← directives fuel false []
    match ← peek? with
    | some .documentStart => do
      skip
      modify fun p => { p with handles := withStandard handles }
      let i ← content fuel
      finish fuel
      return some i
    | _ => malformed
  | _ => do
    modify fun p => { p with handles := standardHandles }
    let i ← node fuel .block
    finish fuel
    return some i

end Parser

/-- A document: its nodes, and the number of the one that holds all others. -/
structure Tree where
  nodes : Array Node
  root : Nat

/-- The document of a text; none when there is none in it. -/
def Tree.ofText? (text : List Char) : Except Fault (Option Tree) := do
  let scanner ← Scanner.ofText text
  let (root, p) ← (Parser.document (4 * text.length + 8)).run { scanner }
  return root.map fun i => ⟨p.nodes, i⟩

end MergeGate.Yaml
