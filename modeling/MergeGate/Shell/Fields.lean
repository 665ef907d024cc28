/-
Fields of expanded words. What a substitution gave is a region that is split at separators; all else
stays together. White space among the separators is passed over at both ends of a field; any other
separator ends a field, even an empty one. The parameters of the script come as a region of their own
that is split only at the gaps between them.
-/
import MergeGate.Shell.Pattern

namespace MergeGate.Shell

/-- A byte of an expanded word. -/
inductive Glyph where
  | plain (c : Char)
  | quoted (c : Char)
  /-- a quotation mark, which keeps a field from vanishing -/
  | mark
  /-- the gap between two parameters -/
  | gap
  deriving DecidableEq, Repr

namespace Glyph

/-- The byte. -/
def byte? : Glyph → Option Char
  | plain c | quoted c => some c
  | mark | gap => none

/-- The bytes of glyphs. -/
def bytes (gs : List Glyph) : Bytes := gs.filterMap byte?

/-- The pattern that glyphs write: quoted bytes stand for themselves, and so does what follows a
backslash. -/
def signs : List Glyph → List Sign
  | [] => []
  | .plain '\\' :: .plain c :: rest => .self c :: signs rest
  | .plain '\\' :: .quoted c :: rest => .self c :: signs rest
  | .plain '\\' :: rest => .self '\\' :: signs rest
  | .plain c :: rest => ⟨c, false⟩ :: signs rest
  | .quoted c :: rest => .self c :: signs rest
  | .mark :: rest | .gap :: rest => signs rest

/-- The bytes up to the first gap, where patterns stop looking. -/
def upToGap (gs : List Glyph) : Bytes := bytes (gs.takeWhile (· != .gap))

/-- The places at which glyphs can be cut, up to the first gap. -/
def firstCuts (gs : List Glyph) : List Nat := List.range ((gs.takeWhile (· != .gap)).length + 1)

/-- The places at which glyphs can be cut, the last first. -/
def lastCuts (gs : List Glyph) : List Nat := (List.range (gs.length + 1)).reverse

/-- What is left without the shortest or longest start that fits. -/
def dropStart (longest : Bool) (signs : List Sign) (gs : List Glyph) : List Glyph :=
  match (if longest then lastCuts gs else firstCuts gs).find? fun n =>
    Pattern.fits signs (upToGap (gs.take n)) with
  | some n => gs.drop n
  | none => gs

/-- What is left without the shortest or longest end that fits. -/
def dropEnd (longest : Bool) (signs : List Sign) (gs : List Glyph) : List Glyph :=
  match (if longest then firstCuts gs else lastCuts gs).find? fun n =>
    Pattern.fits signs (upToGap (gs.drop n)) with
  | some n => gs.take n
  | none => gs

end Glyph

/-- How a piece of an expanded word is split. -/
inductive Splitting where
  | whole
  | atSeparators
  | atGaps
  deriving DecidableEq, Repr

/-- A piece of an expanded word. -/
structure Piece where
  glyphs : List Glyph
  splitting : Splitting := .whole
  deriving Repr

/-- The bytes of pieces. -/
def Piece.bytes (ps : List Piece) : Bytes := ps.flatMap fun p => Glyph.bytes p.glyphs

/-- The glyphs of pieces. -/
def Piece.glyphsOf (ps : List Piece) : List Glyph := ps.flatMap (·.glyphs)

namespace Fields

/-- Fields that are being split off; the field that has begun is reversed. -/
structure Work where
  done : List (List Glyph) := []
  current : List Glyph := []
  /-- was the last byte white space that ended a field? -/
  afterBlank : Bool := false
  /-- how many more fields may be split off, if there is a limit -/
  left : Option Nat := none
  /-- how much of the last field is kept, when only separators have come since -/
  keep : Option Nat := none
  lastAtGaps : Bool := false

/-- End the field that has begun. -/
def Work.close (w : Work) : Work :=
  { w with done := w.current.reverse :: w.done, current := [] }

/-- Is the byte white space that separates? -/
def isBlank (c : Char) : Bool := c == ' ' || c == '\t' || c == '\n'

/-- Does the glyph separate fields? -/
def isSeparator (separators : Bytes) (atGaps : Bool) : Glyph → Bool
  | .gap => true
  | g => !atGaps && (g.byte?.map separators.contains).getD false

/-- One more glyph of a region. -/
def Work.step (separators : Bytes) (atGaps afterGaps : Bool) (w : Work) (g : Glyph) : Work :=
  let separates := isSeparator separators atGaps g
  let blank := separates && (g == .gap || (g.byte?.map isBlank).getD false)
  if w.left == some 0 then
    -- the last field takes what is left, but for blanks and one separator at its end
    if blank then { w with current := g :: w.current, keep := some (w.keep.getD w.current.length) }
    else
      { w with
        keep := if separates && w.afterBlank then w.keep else none
        current := g :: w.current
        afterBlank := false }
  else if w.afterBlank && separates then
    { w with current := [], afterBlank := blank }
  else
    let w := if w.afterBlank then { w with current := [], afterBlank := false } else w
    if separates then
      let afterBlank := blank && !(afterGaps || atGaps)
      if w.current.isEmpty && afterBlank then { w with afterBlank := false }
      else if w.left == some 1 then
        { w with
          afterBlank
          left := some 0
          keep := some w.current.length
          current := g :: w.current }
      else { w.close with afterBlank, left := w.left.map (· - 1) }
    else { w with current := g :: w.current, afterBlank := false }

/-- One more piece. -/
def Work.piece (separators : Bytes) (w : Work) (p : Piece) : Work :=
  match p.splitting with
  | .whole => { w with current := p.glyphs.reverse ++ w.current }
  | splitting =>
    let atGaps := splitting == .atGaps
    let w' := p.glyphs.foldl (Work.step separators atGaps w.lastAtGaps) { w with afterBlank := false }
    { w' with lastAtGaps := atGaps }

/-- The fields of pieces, at most so many if there is a limit. -/
def split (separators : Bytes) (limit : Option Nat) (ps : List Piece) : List (List Glyph) :=
  let w := ps.foldl (Work.piece separators) { left := limit }
  let last := match w.keep with
    | some n => w.current.reverse.take n
    | none => w.current.reverse
  let done := w.done.reverse
  if w.lastAtGaps || !last.isEmpty then done ++ [last] else done

end Fields

end MergeGate.Shell
