/-
Glob patterns over texts, with case kept. A star stands for any text, line ends and slashes
included; a question mark for one character; a bracket for one character of a set, or outside it
after an exclamation mark. A bracket that is never closed is an ordinary character, as is a
backslash.
-/
namespace MergeGate.Glob

/-- One element of a pattern. -/
inductive Piece where
  | star
  | one
  | exact (c : Char)
  /-- a character inside one of the ranges, or outside all of them -/
  | among (negated : Bool) (ranges : List (Char × Char))
  deriving DecidableEq, Repr

/-- A pattern. -/
abbrev Pattern := List Piece

/-- Does the element, a star apart, stand for the character? -/
def Piece.holds : Piece → Char → Bool
  | star, _ => false
  | one, _ => true
  | exact c, d => c == d
  | among negated ranges, d => negated != ranges.any fun r => r.1 ≤ d && d ≤ r.2

/-- Does some end of the text satisfy `p`? -/
def anySuffix (p : List Char → Bool) : List Char → Bool
  | [] => p []
  | c :: cs => p (c :: cs) || anySuffix p cs

/-- Does the pattern describe the whole text? -/
def Pattern.holds : Pattern → List Char → Bool
  | [], cs => cs.isEmpty
  | .star :: ps, cs => anySuffix (holds ps) cs
  | p :: ps, c :: cs => p.holds c && holds ps cs
  | _ :: _, [] => false

/-! The ends of a text that a pattern describes, all at once -/

/-- Of the ends of a text, the empty one. -/
def emptyEnd : List Char → List Bool
  | [] => [true]
  | _ :: cs => false :: emptyEnd cs

/-- Of the ends of a text, those with a marked one in them. -/
def markedWithin : List Bool → List Bool
  | [] => []
  | b :: bs =>
    let rest := markedWithin bs
    (b || rest.headD false) :: rest

/-- Of the ends of a text, those that are marked after a character that the element stands for. -/
def Piece.before (p : Piece) : List Char → List Bool → List Bool
  | c :: cs, _ :: bs => (p.holds c && bs.headD false) :: p.before cs bs
  | _, _ => [false]

/-- Which ends of a text the pattern describes, the longest first. -/
def Pattern.ends : Pattern → List Char → List Bool
  | [], cs => emptyEnd cs
  | .star :: ps, cs => markedWithin (ends ps cs)
  | p :: ps, cs => p.before cs (ends ps cs)

/-- Does the pattern describe the whole text? Every element looks at every end of the text once. -/
def Pattern.fits (ps : Pattern) (cs : List Char) : Bool := (ends ps cs).headD false

theorem ends_nil (ps : Pattern) : ps.ends [] = [ps.holds []] := by
  induction ps with
  | nil => rfl
  | cons p ps ih =>
    cases p <;> simp [Pattern.ends, Pattern.holds, markedWithin, Piece.before, anySuffix, ih]

theorem ends_cons (ps : Pattern) (c : Char) (cs : List Char) :
    ps.ends (c :: cs) = ps.holds (c :: cs) :: ps.ends cs := by
  induction ps generalizing c cs with
  | nil => rfl
  | cons p ps ih =>
    have head (cs : List Char) : (Pattern.ends ps cs).head? = some (Pattern.holds ps cs) := by
      cases cs with
      | nil => simp [ends_nil]
      | cons d ds => simp [ih]
    have star (cs : List Char) :
        (markedWithin (Pattern.ends ps cs)).head? = some (anySuffix (Pattern.holds ps) cs) := by
      induction cs with
      | nil => simp [ends_nil, markedWithin, anySuffix]
      | cons d ds ihs => simp [ih, markedWithin, anySuffix, ihs, List.headD_eq_head?_getD]
    cases p <;>
      simp [Pattern.ends, Pattern.holds, Piece.before, markedWithin, anySuffix, ih, head, star,
        List.headD_eq_head?_getD]

/-- Looking at all ends at once tells the same as looking for a way through the text. -/
theorem fits_eq_holds (ps : Pattern) (cs : List Char) : ps.fits cs = ps.holds cs := by
  cases cs with
  | nil => simp [Pattern.fits, ends_nil]
  | cons c cs => simp [Pattern.fits, ends_cons]
/-- Split the inside of a bracket off: everything up to the closing bracket. A bracket at the very
start, or right after the exclamation mark, is a member and closes nothing. -/
def splitBracket (cs : List Char) : Option (List Char × List Char) :=
  let (mark, afterMark) := match cs with
    | '!' :: rest => (['!'], rest)
    | _ => ([], cs)
  let (first, rest) := match afterMark with
    | ']' :: rest => ([']'], rest)
    | _ => ([], afterMark)
  match rest.dropWhile (· != ']') with
  | [] => none
  | _ :: after => some (mark ++ first ++ rest.takeWhile (· != ']'), after)

theorem splitBracket_lt {cs body after : List Char} (h : splitBracket cs = some (body, after)) :
    after.length < cs.length := by
  have drop_le : ∀ (l : List Char) (d : Char) (r : List Char),
      l.dropWhile (· != ']') = d :: r → r.length < l.length := by
    intro l d r hl
    have := (List.dropWhile_sublist (fun x : Char => x != ']') (l := l)).length_le
    rw [hl, List.length_cons] at this
    omega
  unfold splitBracket at h
  split at h
  rename_i mark afterMark hm
  split at h
  rename_i first rest hf
  have hr : rest.length ≤ afterMark.length := by
    split at hf <;> · injection hf with _ hf; subst hf; simp
  have ha : afterMark.length ≤ cs.length := by
    split at hm <;> · injection hm with _ hm; subst hm; simp
  split at h
  · simp at h
  · rename_i d r hd
    injection h with h
    injection h with _ h
    subst h
    have := drop_le _ _ _ hd
    omega

/-- Cut the inside of a bracket at the hyphens that make ranges: a hyphen is looked for from the
second character on (the third after an exclamation mark), and after each one the next is looked
for three characters further. `skip` counts the characters not yet looked at. -/
def cutRanges : Nat → List Char → List Char → List (List Char)
  | _, chunk, [] => [chunk.reverse]
  | skip + 1, chunk, c :: cs => cutRanges skip (c :: chunk) cs
  | 0, chunk, c :: cs =>
    if c = '-' then chunk.reverse :: cutRanges 2 [] cs else cutRanges 0 (c :: chunk) cs

/-- Give a hyphen at the very end back to the chunk before it. -/
def closeLast : List (List Char) → List (List Char)
  | [] => []
  | [chunk] => [chunk]
  | [chunk, []] => [chunk ++ ['-']]
  | chunk :: rest => chunk :: closeLast rest

/-- Take empty ranges out: where a range would run backwards, its two ends go and the chunks on
either side become one. Ranges are looked at from the last to the first. -/
def dropEmpty : List (List Char) → List (List Char)
  | [] => []
  | chunk :: rest => match dropEmpty rest with
    | [] => [chunk]
    | next :: more => match chunk.getLast?, next.head? with
      | some lo, some hi =>
        if hi < lo then (chunk.dropLast ++ next.tail) :: more else chunk :: next :: more
      | _, _ => chunk :: next :: more

/-- Members of the set written by chunks: the last character of a chunk and the first of the next
are the ends of a range, all others stand for themselves. -/
def members : List (List Char) → List (Char × Char)
  | [] => []
  | [chunk] => chunk.map fun c => (c, c)
  | chunk :: next :: more =>
    match chunk.getLast?, next with
    | some lo, hi :: after =>
      (chunk.dropLast.map fun c => (c, c)) ++ (lo, hi) :: members (after :: more)
    | _, _ => (chunk.map fun c => (c, c)) ++ members (next :: more)
termination_by chunks => chunks.length

/-- The set written by the inside of a bracket. -/
def bracket (body : List Char) : Piece :=
  let chunks :=
    if body.contains '-' then
      let skip := if body.head? = some '!' then 2 else 1
      dropEmpty (closeLast (cutRanges skip [] body))
    else [body]
  match chunks with
  | ('!' :: first) :: rest => .among true (members (first :: rest))
  | chunks => .among false (members chunks)

/-- Read a pattern. -/
def parse : List Char → Pattern
  | [] => []
  | c :: cs =>
    if c = '*' then .star :: parse cs
    else if c = '?' then .one :: parse cs
    else if c = '[' then
      match _h : splitBracket cs with
      | some (body, after) => bracket body :: parse after
      | none => .exact '[' :: parse cs
    else .exact c :: parse cs
termination_by cs => cs.length
decreasing_by
  all_goals simp_wf
  have := splitBracket_lt _h
  omega

/-- Does the pattern text describe the whole text? -/
def matchText (pattern s : String) : Bool := Pattern.fits (parse pattern.toList) s.toList

/-- A text as a pattern that describes it alone: the three special characters in brackets. -/
def escape (cs : List Char) : List Char :=
  cs.flatMap fun c => if c = '*' || c = '?' || c = '[' then ['[', c, ']'] else [c]

/-- The pattern of the texts that begin with `s`. -/
def beginning (s : String) : String := String.ofList (escape s.toList ++ ['*'])

end MergeGate.Glob
