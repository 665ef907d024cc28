/-
The grammar of condition expressions, apart from how they are read: which tokens spell which tree,
and which texts are layouts of a tree.

`Disjunction`, `Conjunction`, `Unary` and `Primary` follow the four rules of the grammar. `Written`
puts tokens into a text, with any blanks around them, and `IsLayout` adds the wrapper. `Shaped` are
the trees that have a spelling; every such tree passes `check`.
-/
import Mathlib.Data.List.Chain
import MergeGate.Condition.Expression

namespace MergeGate

/-- The name of a field is one of those it may have in an expression. -/
theorem Field.mem_aliases (f : Field) : (f.name, f) ∈ aliases := by
  cases f <;> decide

namespace Condition

/-! ## Trees and their tokens -/

mutual

/-- The tokens spell terms joined by `||`. -/
inductive Disjunction : List Token → Condition → Prop where
  | single {ts c} : Conjunction ts c → Disjunction ts c
  | chain {ts us c d cs} : Conjunction ts c → OrTail us (d :: cs) →
      Disjunction (ts ++ us) (.any (c :: d :: cs))

/-- The tokens spell further terms, each after a `||`. -/
inductive OrTail : List Token → List Condition → Prop where
  | nil : OrTail [] []
  | cons {ts us c cs} : Conjunction ts c → OrTail us cs →
      OrTail (.mark .or :: (ts ++ us)) (c :: cs)

/-- The tokens spell terms joined by `&&`. -/
inductive Conjunction : List Token → Condition → Prop where
  | single {ts c} : Unary ts c → Conjunction ts c
  | chain {ts us c d cs} : Unary ts c → AndTail us (d :: cs) →
      Conjunction (ts ++ us) (.all (c :: d :: cs))

/-- The tokens spell further terms, each after a `&&`. -/
inductive AndTail : List Token → List Condition → Prop where
  | nil : AndTail [] []
  | cons {ts us c cs} : Unary ts c → AndTail us cs →
      AndTail (.mark .and :: (ts ++ us)) (c :: cs)

/-- The tokens spell a negation or a primary. -/
inductive Unary : List Token → Condition → Prop where
  | not {ts c} : Unary ts c → Unary (.mark .not :: ts) (.not c)
  | primary {ts c} : Primary ts c → Unary ts c

/-- The tokens spell one test, a truth value or a disjunction in brackets. -/
inductive Primary : List Token → Condition → Prop where
  | brackets {ts c} : Disjunction ts c →
      Primary (.mark .opening :: (ts ++ [.mark .closing])) c
  | yes : Primary [.name "true"] (.always (.bool true))
  | no : Primary [.name "false"] (.always (.bool false))
  | fits {a f} (s : String) : (a, f) ∈ Field.aliases →
      Primary [.name "matches", .mark .opening, .name a, .mark .comma, .text s, .mark .closing]
        (.glob (.text f.name) (.text s))
  | begins {a f} (s : String) : (a, f) ∈ Field.aliases →
      Primary [.name "startsWith", .mark .opening, .name a, .mark .comma, .text s, .mark .closing]
        (.glob (.text f.name) (.text (Glob.beginning s)))
  | equals {a f} (s : String) : (a, f) ∈ Field.aliases →
      Primary [.name a, .mark .eq, .text s] (.compare (.text f.name) "==" (.text s))
  | differs {a f} (s : String) : (a, f) ∈ Field.aliases →
      Primary [.name a, .mark .ne, .text s] (.compare (.text f.name) "!=" (.text s))

end

/-! ## Tokens in a text -/

/-- A text with each apostrophe doubled. -/
def doubled (cs : List Char) : List Char :=
  cs.flatMap fun c => if c = '\'' then ['\'', '\''] else [c]

/-- How a token is written. -/
def Token.spelling : Token → List Char
  | .mark m => m.text.toList
  | .text s => '\'' :: (doubled s.toList ++ ['\''])
  | .name s => s.toList

/-- Nothing but blanks. -/
def Blank (cs : List Char) : Prop := ∀ c ∈ cs, Text.isBlank c = true

/-- The text consists of the tokens, in their order, with any blanks around each. -/
inductive Written : List Token → List Char → Prop where
  | nil {gap} : Blank gap → Written [] gap
  | cons {gap t ts cs} : Blank gap → Written ts cs → Written (t :: ts) (gap ++ (t.spelling ++ cs))

/-- The text spells the tree and has no wrapper. -/
def IsBare (c : Condition) (cs : List Char) : Prop := ∃ ts, Disjunction ts c ∧ Written ts cs

/-- The text is a layout of the tree: it spells it, bare or inside one `${{ }}`. -/
inductive IsLayout (c : Condition) : List Char → Prop where
  | bare {cs} : IsBare c cs → IsLayout c cs
  | wrapped {before inner after} : Blank before → IsBare c inner → Blank after →
      IsLayout c (before ++ (['$', '\x7b', '\x7b'] ++ (inner ++ (['\x7d', '\x7d'] ++ after))))

/-! ## Trees that have a layout -/

mutual

/-- The trees that expressions stand for. -/
inductive Shaped : Condition → Prop where
  | always (b : Bool) : Shaped (.always (.bool b))
  | equals (f : Field) (s : String) : Shaped (.compare (.text f.name) "==" (.text s))
  | differs (f : Field) (s : String) : Shaped (.compare (.text f.name) "!=" (.text s))
  | glob (f : Field) (p : String) : Shaped (.glob (.text f.name) (.text p))
  | all {c d cs} : ShapedAll (c :: d :: cs) → Shaped (.all (c :: d :: cs))
  | any {c d cs} : ShapedAll (c :: d :: cs) → Shaped (.any (c :: d :: cs))
  | not {c} : Shaped c → Shaped (.not c)

/-- Every tree of the list is shaped. -/
inductive ShapedAll : List Condition → Prop where
  | nil : ShapedAll []
  | cons {c cs} : Shaped c → ShapedAll cs → ShapedAll (c :: cs)

end

mutual

theorem Disjunction.shaped {ts c} : Disjunction ts c → Shaped c
  | .single h => h.shaped
  | .chain h t => .any (.cons h.shaped t.shaped)

theorem OrTail.shaped {ts cs} : OrTail ts cs → ShapedAll cs
  | .nil => .nil
  | .cons h t => .cons h.shaped t.shaped

theorem Conjunction.shaped {ts c} : Conjunction ts c → Shaped c
  | .single h => h.shaped
  | .chain h t => .all (.cons h.shaped t.shaped)

theorem AndTail.shaped {ts cs} : AndTail ts cs → ShapedAll cs
  | .nil => .nil
  | .cons h t => .cons h.shaped t.shaped

theorem Unary.shaped {ts c} : Unary ts c → Shaped c
  | .not h => .not h.shaped
  | .primary h => h.shaped

theorem Primary.shaped {ts c} : Primary ts c → Shaped c
  | .brackets h => h.shaped
  | .yes => .always true
  | .no => .always false
  | .fits (f := f) s _ => .glob f s
  | .begins (f := f) s _ => .glob f _
  | .equals (f := f) s _ => .equals f s
  | .differs (f := f) s _ => .differs f s

end

mutual

/-- Every shaped tree has a spelling, and one that stands anywhere a term may. -/
theorem Shaped.spelled {c} : Shaped c → ∃ ts, Primary ts c
  | .always true => ⟨_, .yes⟩
  | .always false => ⟨_, .no⟩
  | .equals f s => ⟨_, .equals s f.mem_aliases⟩
  | .differs f s => ⟨_, .differs s f.mem_aliases⟩
  | .glob f p => ⟨_, .fits p f.mem_aliases⟩
  | .all (.cons h hs) => by
    obtain ⟨ts, ht⟩ := h.spelled
    obtain ⟨us, hu⟩ := hs.andTail
    exact ⟨_, .brackets (.single (.chain (.primary ht) hu))⟩
  | .any (.cons h hs) => by
    obtain ⟨ts, ht⟩ := h.spelled
    obtain ⟨us, hu⟩ := hs.orTail
    exact ⟨_, .brackets (.chain (.single (.primary ht)) hu)⟩
  | .not h => by
    obtain ⟨ts, ht⟩ := h.spelled
    exact ⟨_, .brackets (.single (.single (.not (.primary ht))))⟩

theorem ShapedAll.andTail {cs} : ShapedAll cs → ∃ us, AndTail us cs
  | .nil => ⟨_, .nil⟩
  | .cons h hs => by
    obtain ⟨ts, ht⟩ := h.spelled
    obtain ⟨us, hu⟩ := hs.andTail
    exact ⟨_, .cons (.primary ht) hu⟩

theorem ShapedAll.orTail {cs} : ShapedAll cs → ∃ us, OrTail us cs
  | .nil => ⟨_, .nil⟩
  | .cons h hs => by
    obtain ⟨ts, ht⟩ := h.spelled
    obtain ⟨us, hu⟩ := hs.orTail
    exact ⟨_, .cons (.single (.primary ht)) hu⟩

end

mutual

/-- A shaped tree passes the check. -/
theorem Shaped.check {c} : Shaped c → check c = .ok ()
  | .always _ => rfl
  | .equals f s => by simp [Condition.check, checkLeaf, isField, operators, Option.filter]
  | .differs f s => by simp [Condition.check, checkLeaf, isField, operators, Option.filter]
  | .glob f p => by simp [Condition.check, checkLeaf, isField]
  | .all h => by simpa [Condition.check] using h.check
  | .any h => by simpa [Condition.check] using h.check
  | .not h => by simpa [Condition.check] using h.check

theorem ShapedAll.check {cs} : ShapedAll cs → checkAll cs = .ok ()
  | .nil => rfl
  | .cons h hs => by simp [checkAll, h.check, hs.check, Except.bind]

end

/-! ## Tokens of a spelling, side by side -/

/-- A name as expressions have them. -/
def isName : List Char → Bool
  | [] => false
  | c :: rest => isNameStart c && rest.all isNameRest

/-- A token that can be read: its name, if it has one, is a name. -/
def Token.Proper : Token → Prop
  | .name s => isName s.toList = true
  | _ => True

instance : DecidablePred Token.Proper
  | .name s => inferInstanceAs (Decidable (isName s.toList = true))
  | .mark _ => .isTrue trivial
  | .text _ => .isTrue trivial

/-- Would the token go on with this character, if it stood right behind it? -/
def Token.takes : Token → Char → Bool
  | .mark .not, c => c == '='
  | .mark _, _ => false
  | .text _, c => c == '\''
  | .name _, c => isNameRest c

/-- The second token may stand right behind the first, without a blank. -/
def Token.Follows (t u : Token) : Prop := ∀ c ∈ u.spelling.head?, t.takes c = false

/-- Only one mark begins with an equals sign. -/
theorem Mark.head_ne_equals {m : Mark} (hm : m ≠ .eq) : ∀ c ∈ m.text.toList.head?, c ≠ '=' := by
  have hall : m.text.toList.head?.all (· != '=') = true := by
    cases m with
    | eq => exact absurd rfl hm
    | _ => decide
  simpa [Option.all_eq_true] using hall

/-- A mark continues no name and no text. -/
theorem Mark.head_apart (m : Mark) :
    ∀ c ∈ m.text.toList.head?, isNameRest c = false ∧ c ≠ '\'' := by
  have hall : m.text.toList.head?.all (fun c => !isNameRest c && c != '\'') = true := by
    cases m <;> decide
  simpa [Option.all_eq_true] using hall

/-- Every mark but `==` may stand right behind any token. -/
theorem Token.follows_mark (t : Token) {m : Mark} (hm : m ≠ .eq) : t.Follows (.mark m) := by
  intro c hc
  have heq := Mark.head_ne_equals hm c hc
  obtain ⟨hname, hquote⟩ := m.head_apart c hc
  cases t with
  | mark k => cases k <;> simp [takes, heq]
  | text s => simp [takes, hquote]
  | name s => simp [takes, hname]

/-- Every token but `==` may stand right behind a mark. -/
theorem Token.mark_follows (m : Mark) {u : Token} (hu : u.Proper) (hne : u ≠ .mark .eq) :
    (Token.mark m).Follows u := by
  intro c hc
  have hfirst : c ≠ '=' := by
    cases u with
    | mark k => exact Mark.head_ne_equals (fun hk => hne (hk ▸ rfl)) c hc
    | text s =>
      simp only [spelling, List.head?_cons, Option.mem_some_iff] at hc
      exact hc ▸ by decide
    | name s =>
      rintro rfl
      simp only [Proper, spelling] at hu hc
      cases h : s.toList with
      | nil => simp [h] at hc
      | cons a cs =>
        simp only [h, List.head?_cons, Option.mem_some_iff] at hc
        simp [h, hc, isName, isNameStart] at hu
  cases m <;> simp [takes, hfirst]

/-- Tokens that can be read, each of which may stand right behind the one before it; the first of
them is not `==`. -/
structure Legible (ts : List Token) : Prop where
  proper : ∀ t ∈ ts, t.Proper
  apart : ts.IsChain Token.Follows
  start : ∀ t ∈ ts.head?, t ≠ .mark .eq

theorem Legible.nil : Legible [] := ⟨by simp, .nil, by simp⟩

theorem Legible.mark {m : Mark} {ts : List Token} (hm : m ≠ .eq) (h : Legible ts) :
    Legible (.mark m :: ts) where
  proper := List.forall_mem_cons.2 ⟨trivial, h.proper⟩
  apart := List.isChain_cons.2 ⟨fun u hu =>
    Token.mark_follows m (h.proper u (List.mem_of_mem_head? hu)) (h.start u hu), h.apart⟩
  start := by simpa using hm

/-- Tokens that begin with a mark other than `==` may stand behind any others. -/
theorem Legible.append {m : Mark} {ts us : List Token} (hm : m ≠ .eq) (ht : Legible ts)
    (hu : Legible us) (hfirst : ∀ u ∈ us.head?, u = .mark m) : Legible (ts ++ us) where
  proper := List.forall_mem_append.2 ⟨ht.proper, hu.proper⟩
  apart := List.isChain_append.2 ⟨ht.apart, hu.apart, fun t _ u hu' =>
    hfirst u hu' ▸ t.follows_mark hm⟩
  start := by
    cases ts with
    | nil => exact hu.start
    | cons t ts => exact ht.start

theorem OrTail.first {us cs} (h : OrTail us cs) : ∀ u ∈ us.head?, u = .mark .or := by
  cases h <;> simp

theorem AndTail.first {us cs} (h : AndTail us cs) : ∀ u ∈ us.head?, u = .mark .and := by
  cases h <;> simp

theorem proper_of_alias {a : String} {f : Field} (h : (a, f) ∈ Field.aliases) :
    (Token.name a).Proper := by
  have : ∀ p ∈ Field.aliases, isName p.1.toList = true := by decide
  exact this _ h

/-- A comparison can be read. -/
theorem legible_comparison {a : String} {f : Field} (h : (a, f) ∈ Field.aliases) (m : Mark)
    (s : String) : Legible [.name a, .mark m, .text s] where
  proper := by simpa [Token.Proper] using proper_of_alias h
  apart := by
    have hm : (Token.name a).Follows (.mark m) := fun c hc => (m.head_apart c hc).1
    refine List.isChain_cons_cons.2 ⟨hm, List.isChain_cons_cons.2 ⟨?_, .singleton _⟩⟩
    exact Token.mark_follows m trivial (by simp)
  start := by simp

/-- A call of a test can be read. -/
theorem legible_call {a : String} {f : Field} (h : (a, f) ∈ Field.aliases) {name : String}
    (hname : (Token.name name).Proper) (s : String) :
    Legible [.name name, .mark .opening, .name a, .mark .comma, .text s, .mark .closing] where
  proper := by simpa [Token.Proper] using And.intro hname (proper_of_alias h)
  apart := by
    simp only [List.isChain_cons_cons, List.isChain_singleton, and_true]
    exact ⟨Token.follows_mark _ (by decide), Token.mark_follows _ (proper_of_alias h) (by simp),
      Token.follows_mark _ (by decide), Token.mark_follows _ trivial (by simp),
      Token.follows_mark _ (by decide)⟩
  start := by simp

mutual

theorem Disjunction.legible {ts c} : Disjunction ts c → Legible ts
  | .single h => h.legible
  | .chain h t => h.legible.append (m := .or) (by decide) t.legible t.first

theorem OrTail.legible {ts cs} : OrTail ts cs → Legible ts
  | .nil => .nil
  | .cons h t => .mark (by decide) (h.legible.append (m := .or) (by decide) t.legible t.first)

theorem Conjunction.legible {ts c} : Conjunction ts c → Legible ts
  | .single h => h.legible
  | .chain h t => h.legible.append (m := .and) (by decide) t.legible t.first

theorem AndTail.legible {ts cs} : AndTail ts cs → Legible ts
  | .nil => .nil
  | .cons h t => .mark (by decide) (h.legible.append (m := .and) (by decide) t.legible t.first)

theorem Unary.legible {ts c} : Unary ts c → Legible ts
  | .not h => .mark (by decide) h.legible
  | .primary h => h.legible

theorem Primary.legible {ts c} : Primary ts c → Legible ts
  | .brackets h => .mark (by decide) (h.legible.append (m := .closing) (by decide)
      (.mark (by decide) .nil) (by simp))
  | .yes => ⟨by decide, .singleton _, by simp⟩
  | .no => ⟨by decide, .singleton _, by simp⟩
  | .fits s h => legible_call h (by decide) s
  | .begins s h => legible_call h (by decide) s
  | .equals s h => legible_comparison h .eq s
  | .differs s h => legible_comparison h .ne s

end

end Condition

end MergeGate
