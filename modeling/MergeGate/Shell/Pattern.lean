/-
Patterns of scripts. They match bytes, not characters: `?` any byte, `*` any bytes, and brackets one
byte of a set. A set is inverted by an exclamation mark only, may hold ranges and named classes, and
a bracket that nothing closes stands for itself.
-/
import MergeGate.Shell.Bytes

namespace MergeGate.Shell

/-- A byte of a pattern; one that is literal stands for itself. -/
structure Sign where
  byte : Char
  literal : Bool
  deriving DecidableEq, Repr

/-- A byte as a sign that stands for itself. -/
def Sign.self (c : Char) : Sign := ⟨c, true⟩

/-- Is the sign the given byte, with its meaning in patterns? -/
def Sign.means (s : Sign) (c : Char) : Bool := !s.literal && s.byte == c

namespace Pattern

/-- Does a byte belong to a named class? -/
def inClass? (name : String) (c : Char) : Option Bool :=
  let n := c.toNat
  let upper := 'A' ≤ c && c ≤ 'Z'
  let lower := 'a' ≤ c && c ≤ 'z'
  let digit := isDigitByte c
  let printing := 33 ≤ n && n ≤ 126
  match name with
  | "alnum" => some (upper || lower || digit)
  | "alpha" => some (upper || lower)
  | "blank" => some (c == ' ' || c == '\t')
  | "cntrl" => some (n < 32 || n == 127)
  | "digit" => some digit
  | "graph" => some printing
  | "lower" => some lower
  | "print" => some (printing || c == ' ')
  | "punct" => some (printing && !(upper || lower || digit))
  | "space" => some (c == ' ' || (9 ≤ n && n ≤ 13))
  | "upper" => some upper
  | "xdigit" => some (digit || ('a' ≤ c && c ≤ 'f') || ('A' ≤ c && c ≤ 'F'))
  | _ => none

/-- The name of a class up to its closing colon and bracket, and the signs behind them. -/
def className? (name : Bytes) : List Sign → Option (String × List Sign)
  | a :: b :: rest =>
    if a.means ':' then
      if b.means ']' then some (String.ofList name.reverse, rest) else none
    else className? (a.byte :: name) (b :: rest)
  | _ => none

theorem length_className? {name : Bytes} {signs rest : List Sign} {found : String}
    (h : className? name signs = some (found, rest)) : rest.length < signs.length := by
  fun_induction className? name signs with
  | case1 name a b tail ha hb =>
    simp only [Option.some.injEq, Prod.mk.injEq] at h
    simp only [← h.2, List.length_cons]
    omega
  | case2 => simp at h
  | case3 name a b tail ha ih =>
    have := ih h
    simp only [List.length_cons] at this ⊢
    omega
  | case4 => simp at h

/-- The named class after an opening bracket inside a set: its name, and the signs behind it. -/
def namedClass? : List Sign → Option (String × List Sign)
  | colon :: rest => if colon.means ':' then className? [] rest else none
  | [] => none

theorem length_namedClass? {signs rest : List Sign} {name : String}
    (h : namedClass? signs = some (name, rest)) : rest.length < signs.length := by
  unfold namedClass? at h
  split at h
  · split at h
    · have := length_className? h
      simp only [List.length_cons]
      omega
    · simp at h
  · simp at h

/-- The order of bytes in ranges, in which the upper half of the bytes comes before zero. -/
def rank (c : Char) : Int := if c.toNat < 128 then c.toNat else (c.toNat : Int) - 256

/-- Whether a byte belongs to the set that the signs describe up to a closing bracket, and the signs
behind that bracket; nothing if the set is not closed. The first sign may be a closing bracket that
belongs to the set. -/
def member? (chr : Char) (first found : Bool) (signs : List Sign) : Option (Bool × List Sign) :=
  match signs with
  | [] => none
  | s :: rest =>
    if s.means ']' && !first then some (found, rest)
    else match _h : if s.means '[' then namedClass? rest else none with
      | some (name, more) => match inClass? name chr with
        | some answer => member? chr false (found || answer) more
        | none => member? chr false (found || s.byte == chr) rest
      | none => match rest with
        | dash :: last :: more =>
          if dash.means '-' && !last.means ']' then
            member? chr false (found || (rank s.byte ≤ rank chr && rank chr ≤ rank last.byte)) more
          else member? chr false (found || s.byte == chr) (dash :: last :: more)
        | rest => member? chr false (found || s.byte == chr) rest
termination_by signs.length
decreasing_by
  · have : rest.length > more.length := by
      split at _h
      · exact length_namedClass? _h
      · simp at _h
    simp only [List.length_cons]
    omega
  all_goals simp only [List.length_cons]; omega

/-- What a bracket says about a byte: the set behind it, perhaps inverted. -/
def bracket? (chr : Char) (signs : List Sign) : Option (Bool × List Sign) :=
  match signs with
  | [] => none
  | s :: rest =>
    if s.means '!' then (member? chr true false rest).map fun r => (!r.1, r.2)
    else member? chr true false signs

/-- The ends of bytes, all of them first and none last. -/
def ends : Bytes → List Bytes
  | [] => [[]]
  | c :: rest => (c :: rest) :: ends rest

/-- Does the pattern fit the bytes? The set of the bytes' ends that are reachable is carried along,
so no choice is tried twice: `tails` are the ends of the text that the rest of the pattern has to
fit. -/
def fitsAny (fuel : Nat) (signs : List Sign) (tails : List Bytes) : Bool :=
  match fuel, signs with
  | 0, _ => false
  | _, [] => tails.any (·.isEmpty)
  | fuel + 1, s :: rest =>
    if tails.isEmpty then false
    else if s.means '*' then
      -- every end of the longest tail can be reached
      let longest := tails.foldl (fun a b => if a.length < b.length then b else a) []
      fitsAny fuel rest (ends longest)
    else if s.means '?' then fitsAny fuel rest (tails.filterMap fun t => t.tail?)
    else if s.means '[' then
      match bracket? 'a' rest with
      | none => literally fuel s rest tails
      | some (_, more) =>
        fitsAny fuel more (tails.filterMap fun t => match t with
          | c :: t => if ((bracket? c rest).map (·.1)).getD false then some t else none
          | [] => none)
    else literally fuel s rest tails
where
  /-- a sign that stands for itself -/
  literally (fuel : Nat) (s : Sign) (rest : List Sign) (tails : List Bytes) : Bool :=
    fitsAny fuel rest (tails.filterMap fun t => match t with
      | c :: t => if c == s.byte then some t else none
      | [] => none)

/-- Does a pattern fit bytes? -/
def fits (signs : List Sign) (bs : Bytes) : Bool := fitsAny (signs.length + 1) signs [bs]

/-- Is there a sign with a meaning? -/
def isActive : List Sign → Bool
  | [] => false
  | s :: rest =>
    s.means '*' || s.means '?' || (s.means '[' && (bracket? 'a' rest).isSome) || isActive rest

end Pattern

end MergeGate.Shell
