/-
YAML files. Whatever text stands in one, its graph is loaded, or it is refused for its configuration,
with two exceptions. A scalar can be of a type that its text does not fit, such as a date that does not
exist; and an integer can be too long to be written.
-/
import MergeGate.Proofs.Loading
import MergeGate.Proofs.Text.Utf8
import MergeGate.WorkflowFile

namespace MergeGate

namespace WorkflowFile

/-- The fault is one of the configuration. -/
def Fault.Refuses : Fault → Prop
  | .document (.rejected r) => r.cause.kind = "ConfigurationError" ∨ r.cause.kind = "ConditionError"
  | _ => False

/-- What the YAML of a text says. -/
def yamlOf (text : String) : Except Yaml.Fault Value := Yaml.load (Text.unifyLineFeeds text.toList)

/-- The fault of a text, if it has one. -/
def faultOf (text : String) : Option Yaml.Fault :=
  match yamlOf text with
  | .error fault => some fault
  | .ok _ => none

theorem yamlOf_eq_error {text : String} {fault : Yaml.Fault} (h : faultOf text = some fault) :
    yamlOf text = .error fault := by
  unfold faultOf at h
  split at h
  · next hfault =>
    cases h
    exact hfault
  · cases h

/-- A path leads to a YAML file with a text in it, which may be opened. -/
structure Holds (f : Folder) (path : Path) (place : Place) (text : String) : Prop where
  expanded : ∃ full, expandHome path = .ok full ∧ full.hasNull = false ∧ Folder.resolve f.home full = place
  way : f.walk (place.take 1) (place.drop 1) = .ok place
  file : f.find? place = some (.file (Folder.bytesOf text))
  free : f.bars place = false
  suffix : Path.suffixOf (place.getLast?.getD "") ∈ [".yml", ".yaml"]

/-- A working folder with a file `ci.yml`. -/
def folderWith (text : String) : Folder :=
  { home := ["", "work"], entries := [(["", "work", "ci.yml"], .file (Folder.bytesOf text))] }

theorem holds_folderWith (text : String) :
    Holds (folderWith text) (.ofText "ci.yml") ["", "work", "ci.yml"] text where
  expanded := ⟨.ofText "ci.yml", rfl, rfl, rfl⟩
  way := rfl
  file := rfl
  free := rfl
  suffix := by decide +kernel

section

variable {f : Folder} {path : Path} {place : Place} {text : String} {readers : Readers}

theorem ofDocument_bytesOf (late : List UInt8 → Option Text.Undecodable) (source text : String) :
    ofDocument late source (Folder.bytesOf text) = (Document.ofYaml source text).mapError .document := by
  rw [ofDocument, Folder.bytesOf, Text.decode_encode]
  simp only [String.ofList_toList]

/-- The workflow of a YAML file is that of its text. -/
theorem load_yaml (h : Holds f path place text) :
    load f readers path = (Document.ofYaml (Folder.shown place) text).mapError .document := by
  obtain ⟨full, hfull, hnull, hplace⟩ := h.expanded
  have hsuffix := h.suffix
  simp only [List.mem_cons, List.not_mem_nil, or_false] at hsuffix
  have hload : load f readers path = loadAt f readers place := by
    simp only [load, hfull, hnull, hplace, h.way, h.file, bind, Except.bind]
    rfl
  have hbytes : f.bytesAt place = .ok (Folder.bytesOf text) := by
    simp only [Folder.bytesAt, h.file, h.free, Bool.false_eq_true, if_false]
  rw [hload, ← ofDocument_bytesOf readers.late]
  simp [loadAt, hsuffix, hbytes]

/-- The graph of a YAML file is that of its text. -/
theorem loadGraph_yaml (h : Holds f path place text) :
    loadGraph f readers path = match yamlOf text with
      | .error .malformed => .error (rejected (.malformed (Folder.shown place)))
      | .error fault => .error (.document (.unreadable fault))
      | .ok v => (Document.toWorkflow (Folder.shown place) v >>= JobGraph.build).mapError
          fun r => .document (.rejected r) := by
  rw [loadGraph, load_yaml h, Document.ofYaml, ← yamlOf]
  cases yamlOf text with
  | error fault => cases fault <;> rfl
  | ok v =>
    cases hw : Document.toWorkflow (Folder.shown place) v with
    | error r => simp [hw, Except.mapError, bind, Except.bind]
    | ok w => simp [hw, Except.mapError, bind, Except.bind]

theorem loadGraph_malformed (h : Holds f path place text) (htext : yamlOf text = .error .malformed) :
    loadGraph f readers path = .error (rejected (.malformed (Folder.shown place))) := by
  rw [loadGraph_yaml h, htext]

/-- A scalar that does not fit its type is no fault of the configuration. -/
theorem loadGraph_unreadable (h : Holds f path place text) {fault : Yaml.Fault}
    (htext : yamlOf text = .error fault) (hfault : fault ≠ .malformed) :
    loadGraph f readers path = .error (.document (.unreadable fault)) := by
  rw [loadGraph_yaml h, htext]
  cases fault with
  | malformed => exact absurd rfl hfault
  | _ => rfl

theorem loadGraph_value (readers : Readers) (h : Holds f path place text) {v : Value} (htext : yamlOf text = .ok v) :
    (∃ g, loadGraph f readers path = .ok g) ∨
    ∃ r, loadGraph f readers path = .error (.document (.rejected r)) ∧
      ((r.cause.kind = "ConfigurationError" ∨ r.cause.kind = "ConditionError") ∨
        v.isTooLong = true ∧ r.cause = .numberTooLong) := by
  rw [loadGraph_yaml h, htext]
  cases hbuilt : Document.toWorkflow (Folder.shown place) v >>= JobGraph.build with
  | error r => exact .inr ⟨r, by simp only [hbuilt]; rfl, Document.kind_of_build_error hbuilt⟩
  | ok g => exact .inl ⟨g, by simp only [hbuilt]; rfl⟩

/-- **YAML files.** Of every text in a YAML file: a graph comes out, or the file is refused for its
configuration, as it is for every text that is no YAML. Otherwise, and whenever there is one, a scalar of
the text does not fit its type and that is the fault; or an integer in the text is too long to be written,
and that is it. -/
theorem loaded_or_refused (readers : Readers) (h : Holds f path place text) :
    ((∃ g, loadGraph f readers path = .ok g) ∨
      (∃ e, loadGraph f readers path = .error e ∧ e.Refuses) ∨
      (∃ fault, yamlOf text = .error fault ∧ fault ≠ .malformed) ∨
      ∃ v r, yamlOf text = .ok v ∧ v.isTooLong = true ∧ r.cause = .numberTooLong ∧
        loadGraph f readers path = .error (.document (.rejected r))) ∧
    (yamlOf text = .error .malformed →
      loadGraph f readers path = .error (rejected (.malformed (Folder.shown place)))) ∧
    ∀ fault, yamlOf text = .error fault → fault ≠ .malformed →
      loadGraph f readers path = .error (.document (.unreadable fault)) := by
  refine ⟨?_, loadGraph_malformed h, fun fault => loadGraph_unreadable h⟩
  cases htext : yamlOf text with
  | error fault =>
    by_cases hfault : fault = .malformed
    · subst hfault
      exact .inr (.inl ⟨_, loadGraph_malformed h htext, .inl rfl⟩)
    · exact .inr (.inr (.inl ⟨fault, rfl, hfault⟩))
  | ok v =>
    rcases loadGraph_value readers h htext with hgraph | ⟨r, hr, hkind | ⟨hlong, hcause⟩⟩
    · exact .inl hgraph
    · exact .inr (.inl ⟨_, hr, hkind⟩)
    · exact .inr (.inr (.inr ⟨v, r, rfl, hlong, hcause, hr⟩))

end

theorem loaded_or_refused_malformed :
    Holds (folderWith "jobs: a: b") (.ofText "ci.yml") ["", "work", "ci.yml"] "jobs: a: b" ∧
    loadGraph (folderWith "jobs: a: b") {} (.ofText "ci.yml") =
      .error (rejected (.malformed "/work/ci.yml")) := by
  have h := holds_folderWith "jobs: a: b"
  have htext : yamlOf "jobs: a: b" = .error .malformed := yamlOf_eq_error (by decide +kernel)
  exact ⟨h, (loaded_or_refused {} h).2.1 htext⟩

/-- A job, and a date in the thirteenth month. -/
def undated : String := "jobs:\n  a:\n    steps: [{run: x}]\nsince: 2024-13-45\n"

/-- A YAML file can fail to load without being refused. -/
theorem undated_escapes :
    Holds (folderWith undated) (.ofText "ci.yml") ["", "work", "ci.yml"] undated ∧
    ∃ e, loadGraph (folderWith undated) {} (.ofText "ci.yml") = .error e ∧ ¬ e.Refuses ∧
      e.message = "month must be in 1..12" := by
  have h := holds_folderWith undated
  have htext : yamlOf undated = .error (.badDate "month must be in 1..12") := yamlOf_eq_error (by decide +kernel)
  exact ⟨h, _, loadGraph_unreadable h htext (by decide), id, rfl⟩

end WorkflowFile

end MergeGate
