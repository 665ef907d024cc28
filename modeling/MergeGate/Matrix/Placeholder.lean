/-
Placeholders of the form `${{ matrix.axis }}` in texts. A text is cut into plain characters and
placeholders in one pass from left to right; rendering puts a value's text in the place of each
placeholder and looks at nothing it has put there. An axis may have no value, and an integer may have
too many digits to be written.
-/
import MergeGate.Value.Text

namespace MergeGate.Matrix

/-- May an axis name begin with the character? -/
def isAxisStart (c : Char) : Bool := c.isAlpha || c == '_'

/-- May an axis name go on with the character? -/
def isAxisRest (c : Char) : Bool := c.isAlphanum || c == '_' || c == '-'

/-- Is the text an axis name? One line feed may follow the name. -/
def isAxisName (cs : List Char) : Bool :=
  match cs with
  | [] => false
  | c :: rest =>
    isAxisStart c && (match rest.dropWhile isAxisRest with
      | [] => true
      | ['\n'] => true
      | _ => false)

/-- Read a placeholder at the very start of a text: its axis, and what follows it. -/
def readPlaceholder? (cs : List Char) : Option (List Char × List Char) := do
  let inside ← Text.dropStart? ['$', '\x7b', '\x7b'] cs
  let named ← Text.dropStart? ['m', 'a', 't', 'r', 'i', 'x', '.'] (Text.dropBlanks inside)
  match named with
  | [] => none
  | c :: rest =>
    if isAxisStart c then
      let after ← Text.dropStart? ['\x7d', '\x7d'] (Text.dropBlanks (rest.dropWhile isAxisRest))
      return (c :: rest.takeWhile isAxisRest, after)
    else none

theorem dropStart?_length {start cs rest : List Char} (h : Text.dropStart? start cs = some rest) :
    rest.length + start.length = cs.length := by
  fun_induction Text.dropStart? start cs with
  | case1 => simp_all
  | case2 => simp at h
  | case3 _ _ _ ih =>
    have := ih h
    simp only [List.length_cons]
    omega
  | case4 => simp at h

theorem dropBlanks_length_le (cs : List Char) : (Text.dropBlanks cs).length ≤ cs.length :=
  (List.dropWhile_sublist Text.isBlank (l := cs)).length_le

theorem readPlaceholder?_lt {cs axis after : List Char}
    (h : readPlaceholder? cs = some (axis, after)) : after.length < cs.length := by
  simp only [readPlaceholder?, bind, Option.bind_eq_some_iff] at h
  obtain ⟨inside, h₁, named, h₂, h⟩ := h
  split at h
  · simp at h
  · rename_i c rest
    split at h
    · simp only [Option.bind_eq_some_iff, pure, Option.some.injEq, Prod.mk.injEq] at h
      obtain ⟨tail, h₃, _, rfl⟩ := h
      have l₁ := dropStart?_length h₁
      have l₂ := dropStart?_length h₂
      have l₃ := dropStart?_length h₃
      have d₁ := dropBlanks_length_le inside
      have d₂ := dropBlanks_length_le (rest.dropWhile isAxisRest)
      have d₃ := (List.dropWhile_sublist isAxisRest (l := rest)).length_le
      simp only [List.length_cons, List.length_nil] at l₁ l₂ l₃
      omega
    · simp at h

/-- A piece of a text: a character that stands for itself, or a placeholder. -/
inductive Segment where
  | plain (c : Char)
  | axis (name : String)
  deriving DecidableEq, Repr

/-- Cut a text into its plain characters and placeholders. -/
def segments (cs : List Char) : List Segment :=
  match cs with
  | [] => []
  | c :: rest => match _h : readPlaceholder? (c :: rest) with
    | some (axis, after) => .axis (String.ofList axis) :: segments after
    | none => .plain c :: segments rest
termination_by cs.length
decreasing_by
  · have := readPlaceholder?_lt _h
    simpa using this
  · simp

/-- The axes that a text names, in order, each as often as it is named. -/
def placeholders (s : String) : List String :=
  (segments s.toList).filterMap fun
    | .plain _ => none
    | .axis name => some name

/-- Why a text cannot be rendered. -/
inductive Unrendered where
  /-- an axis has no value -/
  | missing (axis : String)
  /-- a value is or holds an integer with too many digits to be written -/
  | tooLong
  deriving DecidableEq, Repr

/-- The kind of the failure, as it is reported. -/
def Unrendered.kind : Unrendered → String
  | missing _ => "KeyError"
  | tooLong => "ValueError"

/-- The failure in words. -/
def Unrendered.message : Unrendered → String
  | missing axis => Text.quoted axis
  | tooLong => Decimal.tooLongToWrite

/-- A value as text, if it can be written. -/
def written (v : Value) : Except Unrendered String := if v.isTooLong then .error .tooLong else .ok v.plain

/-- The text that an axis stands for. -/
def textFor (values : String → Option Value) (axis : String) : Except Unrendered String :=
  match values axis with
  | some v => written v
  | none => .error (.missing axis)

/-- The text of one piece. -/
def Segment.render (values : String → Option Value) : Segment → Except Unrendered (List Char)
  | .plain c => .ok [c]
  | .axis name => (textFor values name).map String.toList

/-- The pieces' texts one after the other. -/
def renderAll (values : String → Option Value) : List Segment → Except Unrendered (List Char)
  | [] => .ok []
  | s :: rest => do
    let head ← s.render values
    let tail ← renderAll values rest
    return head ++ tail

/-- A text with the values' texts in place of its placeholders; fails with the first of them that has no
text. -/
def render (values : String → Option Value) (s : String) : Except Unrendered String :=
  (renderAll values (segments s.toList)).map String.ofList

end MergeGate.Matrix
