/-
What somebody may have meant who wrote a name that is not known. Two texts are the more alike the
more of their characters stand in runs that both share: the longest shared run, and then the same
again before it and after it. The names that are alike enough, three at most, are suggested.
-/
import MergeGate.Text.Quoted

namespace MergeGate.CommandLine

/-- How many characters two texts begin with in common. -/
def sharedStart : List Char → List Char → Nat
  | a :: as, b :: bs => if a = b then sharedStart as bs + 1 else 0
  | _, _ => 0

/-- A run that two texts share: where it begins in each, and its length. -/
structure SharedRun where
  left : Nat := 0
  right : Nat := 0
  size : Nat := 0

/-- The better of the best run so far and those that begin at place `i` of the one text and, from
place `j` on, anywhere in the other; the earlier one unless a later is longer. -/
def longestAt (i : Nat) (as : List Char) (best : SharedRun) (j : Nat) : List Char → SharedRun
  | [] => best
  | b :: bs =>
    let size := sharedStart as (b :: bs)
    longestAt i as (if best.size < size then ⟨i, j, size⟩ else best) (j + 1) bs

/-- The longest shared run that begins from place `i` of the one text on. -/
def longestFrom (i : Nat) (best : SharedRun) (bs : List Char) : List Char → SharedRun
  | [] => best
  | a :: as => longestFrom (i + 1) (longestAt i (a :: as) best 0 bs) bs as

/-- How many characters stand in shared runs. Every run shortens the text on both its sides, so the
length of the text is enough `depth`. -/
def sharedCount (depth : Nat) (as bs : List Char) : Nat :=
  match depth with
  | 0 => 0
  | depth + 1 =>
    let run := longestFrom 0 {} bs as
    if run.size = 0 then 0
    else
      sharedCount depth (as.take run.left) (bs.take run.right) + run.size +
        sharedCount depth (as.drop (run.left + run.size)) (bs.drop (run.right + run.size))

/-- How alike a name is to what was written: the characters in shared runs, and all of both. -/
structure Likeness where
  name : String
  shared : Nat
  total : Nat

/-- How alike a name is to what was written. -/
def Likeness.of (written name : String) : Likeness :=
  let (as, bs) := (name.toList, written.toList)
  ⟨name, sharedCount as.length as bs, as.length + bs.length⟩

/-- Alike enough: of ten characters six stand in shared runs. -/
def Likeness.enough (l : Likeness) : Bool := 3 * l.total ≤ 10 * l.shared

/-- More alike, or as much and later by name. -/
def Likeness.before (a b : Likeness) : Bool :=
  let (x, y) := (a.shared * b.total, b.shared * a.total)
  decide (y < x) || (x == y && decide (b.name ≤ a.name))

/-- The names that may have been meant, in ascending order. -/
def meant (written : String) (names : List String) : List String :=
  let alike := (names.map (Likeness.of written)).filter (·.enough)
  Text.sorted (((alike.mergeSort Likeness.before).take 3).map (·.name))

/-- The names that may have been meant, as the end of a message. -/
def suggestion (written : String) (names : List String) : String :=
  match meant written names with
  | [] => ""
  | [name] => " Did you mean " ++ Text.quoted name ++ "?"
  | several => " (Did you mean one of: " ++ ", ".intercalate (several.map Text.quoted) ++ "?)"

end MergeGate.CommandLine
