/-
Blank characters and line ends of Unicode text, and the cuts made by them: `strip` takes the blanks
off both ends, `lines` cuts a text at its line ends, `parts` at a separator. A carriage return
followed by a line feed is one line end.
-/
namespace MergeGate.Text

/-- Is `n` inside one of the closed ranges? -/
def inRanges (ranges : List (Nat × Nat)) (n : Nat) : Bool :=
  ranges.any fun r => decide (r.1 ≤ n) && decide (n ≤ r.2)

/-- The blank code points: the ASCII blanks and separators, and the Unicode spaces. -/
def blankRanges : List (Nat × Nat) :=
  [(9, 13), (28, 32), (0x85, 0x85), (0xa0, 0xa0), (0x1680, 0x1680), (0x2000, 0x200a),
    (0x2028, 0x2029), (0x202f, 0x202f), (0x205f, 0x205f), (0x3000, 0x3000)]

/-- A blank character: one that `strip` removes and that may stand between tokens. -/
def isBlank (c : Char) : Bool := inRanges blankRanges c.toNat

/-- A text without its leading blanks. -/
def dropBlanks (cs : List Char) : List Char := cs.dropWhile isBlank

/-- A text without its trailing blanks. -/
def dropBlanksRight (cs : List Char) : List Char := (cs.reverse.dropWhile isBlank).reverse

/-- A text without blanks at either end. -/
def strip (cs : List Char) : List Char := dropBlanksRight (dropBlanks cs)

/-- `strip` on strings. -/
def stripped (s : String) : String := String.ofList (strip s.toList)

/-- The blanks that may stand around a number: all but the four separators of ASCII. -/
def isSpace (c : Char) : Bool := isBlank c && !(decide (28 ≤ c.toNat) && decide (c.toNat ≤ 31))

/-- A text without the blanks that may stand around a number. -/
def trim (cs : List Char) : List Char :=
  ((cs.dropWhile isSpace).reverse.dropWhile isSpace).reverse

/-- The characters at which a line ends. -/
def isLineEnd (c : Char) : Bool :=
  inRanges [(10, 13), (28, 30), (0x85, 0x85), (0x2028, 0x2029)] c.toNat

/-- Lines of the rest of a text, `line` being the current line read so far, reversed. -/
def linesFrom (line : List Char) : List Char → List (List Char)
  | [] => if line.isEmpty then [] else [line.reverse]
  | '\r' :: '\n' :: rest => line.reverse :: linesFrom [] rest
  | c :: rest =>
    if isLineEnd c then line.reverse :: linesFrom [] rest else linesFrom (c :: line) rest

/-- The lines of a text without their line ends; a final line end opens no further line. -/
def lines (s : String) : List String := (linesFrom [] s.toList).map String.ofList

/-- Every line end as a single line feed. -/
def unifyLineFeeds : List Char → List Char
  | [] => []
  | '\r' :: '\n' :: rest => '\n' :: unifyLineFeeds rest
  | c :: rest => (if c = '\r' then '\n' else c) :: unifyLineFeeds rest

/-- The parts of a text between separators, `part` being the current one read so far, reversed. -/
def partsFrom (sep : Char) (part : List Char) : List Char → List (List Char)
  | [] => [part.reverse]
  | c :: rest =>
    if c = sep then part.reverse :: partsFrom sep [] rest else partsFrom sep (c :: part) rest

/-- The parts of a text between separators: one more than there are separators. -/
def parts (sep : Char) (cs : List Char) : List (List Char) := partsFrom sep [] cs

/-- Texts ordered by code points, ascending; equal texts keep their order. -/
def sorted (xs : List String) : List String := xs.mergeSort fun a b => !decide (b < a)

/-- The distinct texts of a list, ascending. -/
def sortedDistinct (xs : List String) : List String := sorted xs.eraseDups

/-- The texts that occur more than once, each named once, ascending. -/
def repeated (xs : List String) : List String :=
  sortedDistinct (xs.filter fun x => decide (1 < xs.count x))

/-- Does `cs` begin with `start`? Gives what follows it. -/
def dropStart? : List Char → List Char → Option (List Char)
  | [], rest => some rest
  | _ :: _, [] => none
  | a :: start, b :: rest => if a = b then dropStart? start rest else none

/-- The text after `start`, when it begins with it. -/
def afterStart? (start s : String) : Option String :=
  (dropStart? start.toList s.toList).map String.ofList

/-- Does the text contain `part`? -/
def hasPart (part : List Char) : List Char → Bool
  | [] => part.isEmpty
  | c :: rest => (dropStart? part (c :: rest)).isSome || hasPart part rest

end MergeGate.Text
