/-
Tokens of a condition expression: operators, texts between apostrophes in which a doubled
apostrophe stands for one, and names. Blanks before a token are skipped. A text is read as far as
its closing apostrophe; where no single apostrophe closes it, the last doubled pair is split and
its first half closes the text.
-/
import MergeGate.Text.Blank

namespace MergeGate.Condition

/-- The operators and marks of an expression. -/
inductive Mark where
  | eq
  | ne
  | and
  | or
  | not
  | opening
  | closing
  | comma
  deriving DecidableEq, Repr

/-- How a mark is written. -/
def Mark.text : Mark → String
  | eq => "=="
  | ne => "!="
  | and => "&&"
  | or => "||"
  | not => "!"
  | opening => "("
  | closing => ")"
  | comma => ","

/-- A token. -/
inductive Token where
  | mark (m : Mark)
  | text (s : String)
  | name (s : String)
  deriving DecidableEq, Repr

/-- A token as messages quote it. -/
def Token.shown : Token → String
  | mark m => m.text
  | text s => s
  | name s => s

/-- May a name begin with the character? -/
def isNameStart (c : Char) : Bool := c.isAlpha || c == '_'

/-- May a name go on with the character? -/
def isNameRest (c : Char) : Bool := c.isAlphanum || c == '_' || c == '.' || c == '-'

/-- Read a mark; the two-character ones come first. -/
def readMark? : List Char → Option (Mark × List Char)
  | '=' :: '=' :: rest => some (.eq, rest)
  | '!' :: '=' :: rest => some (.ne, rest)
  | '&' :: '&' :: rest => some (.and, rest)
  | '|' :: '|' :: rest => some (.or, rest)
  | '!' :: rest => some (.not, rest)
  | '(' :: rest => some (.opening, rest)
  | ')' :: rest => some (.closing, rest)
  | ',' :: rest => some (.comma, rest)
  | _ => none

/-- Read the inside of a text after its opening apostrophe, up to and with the closing one. -/
def readText? : List Char → Option (List Char × List Char)
  | [] => none
  | '\'' :: '\'' :: rest => match readText? rest with
    | some (body, after) => some ('\'' :: body, after)
    -- nothing closes the text further on, so this pair is split
    | none => some ([], '\'' :: rest)
  | '\'' :: rest => some ([], rest)
  | c :: rest => (readText? rest).map fun r => (c :: r.1, r.2)

/-- Read one token at the very start of a text. -/
def readToken? (cs : List Char) : Option (Token × List Char) :=
  match readMark? cs with
  | some (m, rest) => some (.mark m, rest)
  | none => match cs with
    | [] => none
    | c :: rest =>
      if c = '\'' then (readText? rest).map fun r => (.text (String.ofList r.1), r.2)
      else if isNameStart c then
        some (.name (String.ofList (c :: rest.takeWhile isNameRest)), rest.dropWhile isNameRest)
      else none

theorem readMark?_lt {cs rest : List Char} {m : Mark} (h : readMark? cs = some (m, rest)) :
    rest.length < cs.length := by
  unfold readMark? at h
  split at h <;> simp at h <;>
    (obtain ⟨_, rfl⟩ := h; simp only [List.length_cons]; omega)

theorem readText?_lt {cs body after : List Char} (h : readText? cs = some (body, after)) :
    after.length < cs.length := by
  fun_induction readText? cs generalizing body after with
  | case1 => simp at h
  | case2 rest b a hr ih =>
    simp at h
    obtain ⟨_, rfl⟩ := h
    have := ih hr
    simp only [List.length_cons]
    omega
  | case3 rest hr =>
    simp at h
    obtain ⟨_, rfl⟩ := h
    simp
  | case4 rest _ =>
    simp at h
    obtain ⟨_, rfl⟩ := h
    simp
  | case5 c rest _ _ ih =>
    simp only [Option.map_eq_some_iff] at h
    obtain ⟨⟨b, a⟩, hr, heq⟩ := h
    simp at heq
    obtain ⟨_, rfl⟩ := heq
    have := ih hr
    simp only [List.length_cons]
    omega

theorem readToken?_lt {cs rest : List Char} {t : Token} (h : readToken? cs = some (t, rest)) :
    rest.length < cs.length := by
  unfold readToken? at h
  split at h
  · rename_i m r hm
    simp at h
    obtain ⟨_, rfl⟩ := h
    exact readMark?_lt hm
  · split at h
    · simp at h
    · rename_i c r _
      split at h
      · simp only [Option.map_eq_some_iff] at h
        obtain ⟨⟨b, a⟩, hr, heq⟩ := h
        simp at heq
        obtain ⟨_, rfl⟩ := heq
        have := readText?_lt hr
        simp only [List.length_cons]
        omega
      · split at h
        · simp at h
          obtain ⟨_, rfl⟩ := h
          have := (List.dropWhile_sublist isNameRest (l := r)).length_le
          simp only [List.length_cons]
          omega
        · simp at h

/-- All tokens of a text that has no trailing blanks. Where no token can be read, gives the number
of characters that were left, blanks before the failing place included. -/
def tokens (cs : List Char) : Except Nat (List Token) :=
  if cs.isEmpty then .ok []
  else match _h : readToken? (Text.dropBlanks cs) with
    | none => .error cs.length
    | some (t, rest) => (tokens rest).map (t :: ·)
termination_by cs.length
decreasing_by
  have h1 := readToken?_lt _h
  have h2 := (List.dropWhile_sublist Text.isBlank (l := cs)).length_le
  unfold Text.dropBlanks at h1
  omega

end MergeGate.Condition
