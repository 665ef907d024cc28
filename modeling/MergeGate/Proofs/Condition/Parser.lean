/-
The reader of condition expressions accepts exactly the grammar. Every reading step is first put
into words of what it gives and which tokens it leaves (`Gives`); what a reader gives is then spelled
by the tokens it took (`of_read…`), and what tokens spell is read from them (`…read`), as far as the
tokens behind them do not continue the chain. `parse_reads_layouts` carries this to texts.
-/
import MergeGate.Proofs.Condition.Layout
import MergeGate.Proofs.Condition.Refusal

namespace MergeGate

/-- A name stands for a field exactly when it is listed for it. -/
theorem Field.ofAlias?_eq_some {a : String} {f : Field} :
    ofAlias? a = some f ↔ (a, f) ∈ aliases := by
  constructor
  · intro h
    obtain ⟨l₁, l₂, h, _⟩ := List.lookup_eq_some_iff.1 h
    rw [h]
    simp
  · intro h
    have : ∀ p ∈ aliases, ofAlias? p.1 = some p.2 := by decide
    exact this _ h

namespace Condition

/-! ## What a reading step gives -/

/-- The reading step gives the value and leaves these tokens. -/
def Gives {α : Type} {p : List Token → Prop}
    (x : Except ConditionCause (α × { rest : List Token // p rest })) (a : α) (rest : List Token) :
    Prop :=
  ∃ h, x = .ok (a, ⟨rest, h⟩)

section

variable {α β : Type} {p q : List Token → Prop} {e : String} {ts rest : List Token}

theorem gives_pure {a b : α} {mid : List Token} {h : p mid} :
    Gives (pure (a, ⟨mid, h⟩) : Except ConditionCause (α × { rest : List Token // p rest })) b
      rest ↔ b = a ∧ rest = mid := by
  constructor
  · rintro ⟨_, hx⟩
    have := pure_eq_ok.1 hx
    simp_all
  · rintro ⟨rfl, rfl⟩
    exact ⟨h, rfl⟩

/-- A step after another begins with the tokens that one leaves. -/
theorem gives_bind {x : Except ConditionCause (α × { rest : List Token // p rest })}
    {k : α × { rest : List Token // p rest } →
      Except ConditionCause (β × { rest : List Token // q rest })} {b : β}
    {P : α → List Token → Prop} (hk : ∀ a mid h, Gives (k (a, ⟨mid, h⟩)) b rest ↔ P a mid) :
    Gives (x >>= k) b rest ↔ ∃ a mid, Gives x a mid ∧ P a mid := by
  constructor
  · rintro ⟨h, hx⟩
    obtain ⟨⟨a, mid, hmid⟩, hx, hrest⟩ := bind_eq_ok.1 hx
    exact ⟨a, mid, ⟨hmid, hx⟩, (hk a mid hmid).1 ⟨h, hrest⟩⟩
  · rintro ⟨a, mid, ⟨hmid, hx⟩, hP⟩
    obtain ⟨h, hrest⟩ := (hk a mid hmid).2 hP
    exact ⟨h, bind_eq_ok.2 ⟨_, hx, hrest⟩⟩

/-- A mark that is expected is there and is left out. -/
theorem gives_expectMark {m : Mark} {k : Fewer ts →
      Except ConditionCause (β × { rest : List Token // q rest })} {b : β}
    {P : List Token → Prop} (hk : ∀ mid h, Gives (k ⟨mid, h⟩) b rest ↔ P mid) :
    Gives (expectMark e m ts >>= k) b rest ↔ ∃ mid, ts = .mark m :: mid ∧ P mid := by
  cases ts with
  | nil => simp [expectMark, Gives, bind, Except.bind]
  | cons t ts =>
    by_cases ht : t = .mark m
    · simpa [expectMark, ht, bind, Except.bind] using hk ts (by simp)
    · simp [expectMark, ht, Gives, bind, Except.bind]

/-- A last step that only makes something of a value leaves the same tokens. -/
theorem gives_last {x : Except ConditionCause (α × { rest : List Token // p rest })}
    {k : α × { rest : List Token // p rest } →
      Except ConditionCause (β × { rest : List Token // q rest })} {b : β} {f : α → β}
    (hk : ∀ a mid h, Gives (k (a, ⟨mid, h⟩)) b rest ↔ b = f a ∧ rest = mid) :
    Gives (x >>= k) b rest ↔ ∃ a, Gives x a rest ∧ b = f a := by
  rw [gives_bind hk]
  constructor
  · rintro ⟨a, _, hx, hb, rfl⟩
    exact ⟨a, hx, hb⟩
  · rintro ⟨a, hx, hb⟩
    exact ⟨a, _, hx, hb, rfl⟩

theorem gives_ok {a b : α} {mid : List Token} {h : p mid} :
    Gives (.ok (a, ⟨mid, h⟩) : Except ConditionCause (α × { rest : List Token // p rest })) b
      rest ↔ b = a ∧ rest = mid :=
  gives_pure

theorem not_gives_error {c : ConditionCause} {a : α} :
    ¬ Gives (.error c : Except ConditionCause (α × { rest : List Token // p rest })) a rest := by
  simp [Gives]

theorem gives_expectText {s : String} :
    Gives (expectText e ts) s rest ↔ ts = .text s :: rest := by
  rcases ts with _ | ⟨m | t | n, ts⟩
  · simp [expectText, not_gives_error]
  · simp [expectText, not_gives_error]
  · simp [expectText, gives_ok, eq_comm]
  · simp [expectText, not_gives_error]

/-- A name that should be one of a field is listed for it. -/
theorem gives_fieldNamed {name : String} {k : Field →
      Except ConditionCause (β × { rest : List Token // q rest })} {b : β}
    {P : Field → Prop} (hk : ∀ f, Gives (k f) b rest ↔ P f) :
    Gives (fieldNamed e name >>= k) b rest ↔ ∃ f, (name, f) ∈ Field.aliases ∧ P f := by
  simp only [← Field.ofAlias?_eq_some, fieldNamed]
  cases Field.ofAlias? name with
  | none => simp [bind, Except.bind, not_gives_error]
  | some f => simpa [bind, Except.bind] using hk f

theorem gives_expectField {f : Field} :
    Gives (expectField e ts) f rest ↔ ∃ a, (a, f) ∈ Field.aliases ∧ ts = .name a :: rest := by
  rcases ts with _ | ⟨m | t | n, ts⟩
  · simp [expectField, not_gives_error]
  · simp [expectField, not_gives_error]
  · simp [expectField, not_gives_error]
  · refine Iff.trans (gives_fieldNamed fun _ => gives_pure) ?_
    grind

theorem gives_expectComparison {name : String} {m : Mark} :
    Gives (expectComparison e name ts) m rest ↔ (m = .eq ∨ m = .ne) ∧ ts = .mark m :: rest := by
  rcases ts with _ | ⟨k | t | n, ts⟩
  · simp [expectComparison, not_gives_error]
  · cases k <;> simp [expectComparison, not_gives_error, gives_ok] <;> grind
  · simp [expectComparison, not_gives_error]
  · simp [expectComparison, not_gives_error]

theorem gives_readGlob {pattern : String → String} {c : Condition} :
    Gives (readGlob e pattern ts) c rest ↔ ∃ a f s, (a, f) ∈ Field.aliases ∧
      ts = .mark .opening :: .name a :: .mark .comma :: .text s :: .mark .closing :: rest ∧
      c = .glob (.text f.name) (.text (pattern s)) := by
  refine Iff.trans (gives_expectMark fun _ _ => gives_bind fun _ _ _ => gives_expectMark fun _ _ =>
    gives_bind fun _ _ _ => gives_expectMark fun _ _ => gives_pure) ?_
  simp only [gives_expectField, gives_expectText]
  grind

theorem gives_readComparison {name : String} {c : Condition} :
    Gives (readComparison e name ts) c rest ↔ ∃ f m s, (name, f) ∈ Field.aliases ∧
      (m = .eq ∨ m = .ne) ∧ ts = .mark m :: .text s :: rest ∧
      c = .compare (.text f.name) m.text (.text s) := by
  refine Iff.trans (gives_fieldNamed fun _ => gives_bind fun _ _ _ => gives_bind fun _ _ _ =>
    gives_pure) ?_
  simp only [gives_expectComparison, gives_expectText]
  grind

/-! ## What the grammar's readers give -/

theorem gives_readOr {c : Condition} :
    Gives (readOr e ts) c rest ↔ ∃ first mid, Gives (readAnd e ts) first mid ∧
      ∃ more, Gives (readOrRest e mid) more rest ∧ c = joinTerms .any first more := by
  rw [readOr]
  exact gives_bind fun _ _ _ => gives_last fun _ _ _ => gives_pure

theorem gives_readOrRest {cs : List Condition} :
    Gives (readOrRest e (.mark .or :: ts)) cs rest ↔ ∃ term mid, Gives (readAnd e ts) term mid ∧
      ∃ more, Gives (readOrRest e mid) more rest ∧ cs = term :: more := by
  rw [readOrRest]
  exact gives_bind fun _ _ _ => gives_last fun _ _ _ => gives_pure

theorem gives_readOrRest_end {cs : List Condition} (h : ∀ t ∈ ts.head?, t ≠ .mark .or) :
    Gives (readOrRest e ts) cs rest ↔ cs = [] ∧ rest = ts := by
  rw [readOrRest]
  · exact gives_pure
  · rintro us rfl
    exact h _ rfl rfl

theorem gives_readAnd {c : Condition} :
    Gives (readAnd e ts) c rest ↔ ∃ first mid, Gives (readUnary e ts) first mid ∧
      ∃ more, Gives (readAndRest e mid) more rest ∧ c = joinTerms .all first more := by
  rw [readAnd]
  exact gives_bind fun _ _ _ => gives_last fun _ _ _ => gives_pure

theorem gives_readAndRest {cs : List Condition} :
    Gives (readAndRest e (.mark .and :: ts)) cs rest ↔ ∃ term mid, Gives (readUnary e ts) term mid ∧
      ∃ more, Gives (readAndRest e mid) more rest ∧ cs = term :: more := by
  rw [readAndRest]
  exact gives_bind fun _ _ _ => gives_last fun _ _ _ => gives_pure

theorem gives_readAndRest_end {cs : List Condition} (h : ∀ t ∈ ts.head?, t ≠ .mark .and) :
    Gives (readAndRest e ts) cs rest ↔ cs = [] ∧ rest = ts := by
  rw [readAndRest]
  · exact gives_pure
  · rintro us rfl
    exact h _ rfl rfl

theorem gives_readUnary_not {c : Condition} :
    Gives (readUnary e (.mark .not :: ts)) c rest ↔
      ∃ term, Gives (readUnary e ts) term rest ∧ c = .not term := by
  rw [readUnary]
  exact gives_last fun _ _ _ => gives_pure

theorem readUnary_primary (h : ∀ t ∈ ts.head?, t ≠ .mark .not) :
    readUnary e ts = readPrimary e ts := by
  rw [readUnary]
  rintro us rfl
  exact h _ rfl rfl

theorem gives_readPrimary_brackets {c : Condition} :
    Gives (readPrimary e (.mark .opening :: ts)) c rest ↔
      Gives (readOr e ts) c (.mark .closing :: rest) := by
  rw [readPrimary]
  refine Iff.trans (gives_bind fun _ _ _ => gives_expectMark fun _ _ => gives_pure) ?_
  grind

theorem not_gives_readPrimary_mark {m : Mark} (hm : m ≠ .opening) {c : Condition} :
    ¬ Gives (readPrimary e (.mark m :: ts)) c rest := by
  cases m with
  | opening => exact absurd rfl hm
  | _ => simp [readPrimary, not_gives_error]

theorem gives_readPrimary_test {name : String} {c : Condition} (ht : name ≠ "true") (hf : name ≠ "false") :
    Gives (readPrimary e (.name name :: ts)) c rest ↔ Gives (readTest e name ts) c rest := by
  rw [readPrimary, if_neg (by simp [ht, hf])]
  refine Iff.trans (gives_bind fun _ _ _ => gives_pure) ?_
  grind

theorem gives_readTest {name : String} {c : Condition} :
    Gives (readTest e name ts) c rest ↔
      (name = "matches" ∧ Gives (readGlob e id ts) c rest) ∨
      (name = "startsWith" ∧ Gives (readGlob e Glob.beginning ts) c rest) ∨
      (name ≠ "matches" ∧ name ≠ "startsWith" ∧ Gives (readComparison e name ts) c rest) := by
  unfold readTest
  split
  · next h => simp [h]
  · next h =>
    split
    · next h' => simp [h']
    · next h' => simp [h, h']

theorem Gives.length_lt {a : α} {x : Step α ts} (h : Gives x a rest) : rest.length < ts.length :=
  h.1

end

/-! ## What is read is spelled by the tokens -/

theorem Disjunction.join {ts us : List Token} {c : Condition} {cs : List Condition}
    (h : Conjunction ts c) (ht : OrTail us cs) : Disjunction (ts ++ us) (joinTerms .any c cs) := by
  cases ht with
  | nil => simpa [joinTerms] using Disjunction.single h
  | cons h' ht => exact .chain h (.cons h' ht)

theorem Conjunction.join {ts us : List Token} {c : Condition} {cs : List Condition}
    (h : Unary ts c) (ht : AndTail us cs) : Conjunction (ts ++ us) (joinTerms .all c cs) := by
  cases ht with
  | nil => simpa [joinTerms] using Conjunction.single h
  | cons h' ht => exact .chain h (.cons h' ht)

theorem Primary.of_readTest {e name : String} {ts rest : List Token} {c : Condition}
    (h : Gives (readTest e name ts) c rest) : ∃ us, ts = us ++ rest ∧ Primary (.name name :: us) c := by
  rcases gives_readTest.1 h with ⟨rfl, h⟩ | ⟨rfl, h⟩ | ⟨-, -, h⟩
  · obtain ⟨a, f, s, ha, rfl, rfl⟩ := gives_readGlob.1 h
    exact ⟨[_, _, _, _, _], rfl, .fits s ha⟩
  · obtain ⟨a, f, s, ha, rfl, rfl⟩ := gives_readGlob.1 h
    exact ⟨[_, _, _, _, _], rfl, .begins s ha⟩
  · obtain ⟨f, m, s, ha, rfl | rfl, rfl, rfl⟩ := gives_readComparison.1 h
    · exact ⟨[_, _], rfl, .equals s ha⟩
    · exact ⟨[_, _], rfl, .differs s ha⟩

mutual

theorem Disjunction.of_readOr {e : String} {ts rest : List Token} {c : Condition}
    (h : Gives (readOr e ts) c rest) : ∃ us, ts = us ++ rest ∧ Disjunction us c := by
  obtain ⟨first, mid, hfirst, more, hmore, rfl⟩ := gives_readOr.1 h
  have hlt := hfirst.length_lt
  obtain ⟨us, rfl, hus⟩ := Conjunction.of_readAnd hfirst
  obtain ⟨vs, rfl, hvs⟩ := OrTail.of_readOrRest hmore
  exact ⟨us ++ vs, by simp, .join hus hvs⟩
termination_by (ts.length, 4)

theorem OrTail.of_readOrRest {e : String} {ts rest : List Token} {cs : List Condition}
    (h : Gives (readOrRest e ts) cs rest) : ∃ us, ts = us ++ rest ∧ OrTail us cs := by
  by_cases hor : ∀ t ∈ ts.head?, t ≠ .mark .or
  · obtain ⟨rfl, rfl⟩ := (gives_readOrRest_end hor).1 h
    exact ⟨[], rfl, .nil⟩
  · obtain ⟨ts, rfl⟩ : ∃ us, ts = .mark .or :: us := by
      cases ts <;> simp_all
    obtain ⟨term, mid, hterm, more, hmore, rfl⟩ := gives_readOrRest.1 h
    have hlt := hterm.length_lt
    obtain ⟨us, rfl, hus⟩ := Conjunction.of_readAnd hterm
    obtain ⟨vs, rfl, hvs⟩ := OrTail.of_readOrRest hmore
    exact ⟨.mark .or :: (us ++ vs), by simp, .cons hus hvs⟩
termination_by (ts.length, 0)

theorem Conjunction.of_readAnd {e : String} {ts rest : List Token} {c : Condition}
    (h : Gives (readAnd e ts) c rest) : ∃ us, ts = us ++ rest ∧ Conjunction us c := by
  obtain ⟨first, mid, hfirst, more, hmore, rfl⟩ := gives_readAnd.1 h
  have hlt := hfirst.length_lt
  obtain ⟨us, rfl, hus⟩ := Unary.of_readUnary hfirst
  obtain ⟨vs, rfl, hvs⟩ := AndTail.of_readAndRest hmore
  exact ⟨us ++ vs, by simp, .join hus hvs⟩
termination_by (ts.length, 3)

theorem AndTail.of_readAndRest {e : String} {ts rest : List Token} {cs : List Condition}
    (h : Gives (readAndRest e ts) cs rest) : ∃ us, ts = us ++ rest ∧ AndTail us cs := by
  by_cases hand : ∀ t ∈ ts.head?, t ≠ .mark .and
  · obtain ⟨rfl, rfl⟩ := (gives_readAndRest_end hand).1 h
    exact ⟨[], rfl, .nil⟩
  · obtain ⟨ts, rfl⟩ : ∃ us, ts = .mark .and :: us := by
      cases ts <;> simp_all
    obtain ⟨term, mid, hterm, more, hmore, rfl⟩ := gives_readAndRest.1 h
    have hlt := hterm.length_lt
    obtain ⟨us, rfl, hus⟩ := Unary.of_readUnary hterm
    obtain ⟨vs, rfl, hvs⟩ := AndTail.of_readAndRest hmore
    exact ⟨.mark .and :: (us ++ vs), by simp, .cons hus hvs⟩
termination_by (ts.length, 0)

theorem Unary.of_readUnary {e : String} {ts rest : List Token} {c : Condition}
    (h : Gives (readUnary e ts) c rest) : ∃ us, ts = us ++ rest ∧ Unary us c := by
  by_cases hnot : ∀ t ∈ ts.head?, t ≠ .mark .not
  · rw [readUnary_primary hnot] at h
    obtain ⟨us, rfl, hus⟩ := Primary.of_readPrimary h
    exact ⟨us, rfl, .primary hus⟩
  · obtain ⟨ts, rfl⟩ : ∃ us, ts = .mark .not :: us := by
      cases ts <;> simp_all
    obtain ⟨term, hterm, rfl⟩ := gives_readUnary_not.1 h
    obtain ⟨us, rfl, hus⟩ := Unary.of_readUnary hterm
    exact ⟨.mark .not :: us, rfl, .not hus⟩
termination_by (ts.length, 2)

theorem Primary.of_readPrimary {e : String} {ts rest : List Token} {c : Condition}
    (h : Gives (readPrimary e ts) c rest) : ∃ us, ts = us ++ rest ∧ Primary us c := by
  match ts with
  | [] => simp [readPrimary, not_gives_error] at h
  | .text s :: ts => simp [readPrimary, not_gives_error] at h
  | .mark m :: ts =>
    by_cases hm : m = .opening
    · subst hm
      obtain ⟨us, rfl, hus⟩ := Disjunction.of_readOr (gives_readPrimary_brackets.1 h)
      exact ⟨.mark .opening :: (us ++ [.mark .closing]), by simp, .brackets hus⟩
    · exact absurd h (not_gives_readPrimary_mark hm)
  | .name n :: ts =>
    by_cases ht : n = "true"
    · subst ht
      rw [readPrimary, if_pos (by simp)] at h
      obtain ⟨rfl, rfl⟩ := gives_ok.1 h
      exact ⟨[_], rfl, .yes⟩
    · by_cases hf : n = "false"
      · subst hf
        rw [readPrimary, if_pos (by simp)] at h
        obtain ⟨rfl, rfl⟩ := gives_ok.1 h
        exact ⟨[_], rfl, .no⟩
      · obtain ⟨us, rfl, hus⟩ := Primary.of_readTest ((gives_readPrimary_test ht hf).1 h)
        exact ⟨.name n :: us, rfl, hus⟩
termination_by (ts.length, 1)

end

/-! ## What the tokens spell is read -/

theorem Primary.not_not {ts : List Token} {c : Condition} (h : Primary ts c) (rest : List Token) :
    ∀ t ∈ (ts ++ rest).head?, t ≠ .mark .not := by
  cases h <;> simp

/-- The name of a field begins nothing but a comparison. -/
theorem Primary.read_comparison {a : String} {f : Field} (ha : (a, f) ∈ Field.aliases) {m : Mark}
    (hm : m = .eq ∨ m = .ne) (e s : String) (rest : List Token) :
    Gives (readPrimary e ([.name a, .mark m, .text s] ++ rest))
      (.compare (.text f.name) m.text (.text s)) rest := by
  have hplain : ∀ p ∈ Field.aliases,
      p.1 ≠ "true" ∧ p.1 ≠ "false" ∧ p.1 ≠ "matches" ∧ p.1 ≠ "startsWith" := by decide
  obtain ⟨h₁, h₂, h₃, h₄⟩ := hplain _ ha
  refine (gives_readPrimary_test h₁ h₂).2 (gives_readTest.2 (.inr (.inr ⟨h₃, h₄, ?_⟩)))
  exact gives_readComparison.2 ⟨f, m, s, ha, hm, rfl, rfl⟩

mutual

theorem Disjunction.read {e : String} {ts : List Token} {c : Condition} {rest : List Token}
    (hrest : ∀ t ∈ rest.head?, t ≠ .mark .or ∧ t ≠ .mark .and) :
    Disjunction ts c → Gives (readOr e (ts ++ rest)) c rest
  | .single h => gives_readOr.2 ⟨c, rest, h.read fun t ht => (hrest t ht).2, [],
      (gives_readOrRest_end fun t ht => (hrest t ht).1).2 ⟨rfl, rfl⟩, rfl⟩
  | .chain h t => by
    rw [List.append_assoc]
    refine gives_readOr.2 ⟨_, _, h.read ?_, _, t.read hrest, rfl⟩
    cases t
    simp

theorem OrTail.read {e : String} {ts : List Token} {cs : List Condition} {rest : List Token}
    (hrest : ∀ t ∈ rest.head?, t ≠ .mark .or ∧ t ≠ .mark .and) :
    OrTail ts cs → Gives (readOrRest e (ts ++ rest)) cs rest
  | .nil => (gives_readOrRest_end fun t ht => (hrest t ht).1).2 ⟨rfl, rfl⟩
  | .cons h t => by
    rw [List.cons_append, List.append_assoc]
    refine gives_readOrRest.2 ⟨_, _, h.read ?_, _, t.read hrest, rfl⟩
    cases t with
    | nil => exact fun t ht => (hrest t ht).2
    | cons => simp

theorem Conjunction.read {e : String} {ts : List Token} {c : Condition} {rest : List Token}
    (hrest : ∀ t ∈ rest.head?, t ≠ .mark .and) :
    Conjunction ts c → Gives (readAnd e (ts ++ rest)) c rest
  | .single h => gives_readAnd.2 ⟨c, rest, h.read, [],
      (gives_readAndRest_end hrest).2 ⟨rfl, rfl⟩, rfl⟩
  | .chain h t => by
    rw [List.append_assoc]
    exact gives_readAnd.2 ⟨_, _, h.read, _, t.read hrest, rfl⟩

theorem AndTail.read {e : String} {ts : List Token} {cs : List Condition} {rest : List Token}
    (hrest : ∀ t ∈ rest.head?, t ≠ .mark .and) :
    AndTail ts cs → Gives (readAndRest e (ts ++ rest)) cs rest
  | .nil => (gives_readAndRest_end hrest).2 ⟨rfl, rfl⟩
  | .cons h t => by
    rw [List.cons_append, List.append_assoc]
    exact gives_readAndRest.2 ⟨_, _, h.read, _, t.read hrest, rfl⟩

theorem Unary.read {e : String} {ts : List Token} {c : Condition} {rest : List Token} :
    Unary ts c → Gives (readUnary e (ts ++ rest)) c rest
  | .not h => gives_readUnary_not.2 ⟨_, h.read, rfl⟩
  | .primary h => by
    rw [readUnary_primary (h.not_not rest)]
    exact h.read

theorem Primary.read {e : String} {ts : List Token} {c : Condition} {rest : List Token} :
    Primary ts c → Gives (readPrimary e (ts ++ rest)) c rest
  | .brackets h => by
    rw [List.cons_append, List.append_assoc]
    exact gives_readPrimary_brackets.2 (h.read (by simp))
  | .yes => by
    rw [List.cons_append, readPrimary, if_pos (by simp)]
    exact gives_ok.2 ⟨rfl, rfl⟩
  | .no => by
    rw [List.cons_append, readPrimary, if_pos (by simp)]
    exact gives_ok.2 ⟨rfl, rfl⟩
  | .fits s ha => by
    refine (gives_readPrimary_test (by decide) (by decide)).2 (gives_readTest.2 (.inl ⟨rfl, ?_⟩))
    exact gives_readGlob.2 ⟨_, _, s, ha, rfl, rfl⟩
  | .begins s ha => by
    refine (gives_readPrimary_test (by decide) (by decide)).2
      (gives_readTest.2 (.inr (.inl ⟨rfl, ?_⟩)))
    exact gives_readGlob.2 ⟨_, _, s, ha, rfl, rfl⟩
  | .equals s ha => Primary.read_comparison ha (.inl rfl) e s rest
  | .differs s ha => Primary.read_comparison ha (.inr rfl) e s rest

end

/-- All tokens are read as one tree exactly when they spell it. -/
theorem readAll_eq_ok {e : String} {ts : List Token} {c : Condition} :
    readAll e ts = .ok c ↔ Disjunction ts c := by
  have hall : readAll e ts = .ok c ↔ Gives (readOr e ts) c [] := by
    rw [readAll, bind_eq_ok]
    constructor
    · rintro ⟨⟨d, rest, hlt⟩, hread, h⟩
      cases rest with
      | nil =>
        obtain rfl := pure_eq_ok.1 h
        exact ⟨hlt, hread⟩
      | cons t rest => simp at h
    · rintro ⟨hlt, hread⟩
      exact ⟨_, hread, rfl⟩
  rw [hall]
  constructor
  · intro h
    obtain ⟨us, rfl, hus⟩ := Disjunction.of_readOr h
    simpa using hus
  · intro h
    have hread : Gives (readOr e (ts ++ [])) c [] := h.read (by simp)
    rwa [List.append_nil] at hread

/-! ## Texts -/

/-- A text is read as the tree that its inside spells. -/
theorem parse_eq_ok {s : String} {c : Condition} :
    parse s = .ok c ↔ IsBare c ((unwrap? s.toList).getD s.toList) := by
  rw [parse]
  split
  · next left htokens =>
    simp only [reduceCtorEq, IsBare, false_iff, not_exists, not_and]
    intro ts hts hw
    simp [hts.legible.tokens_strip hw] at htokens
  · next ts htokens =>
    simp only [bind_eq_ok, pure_eq_ok, readAll_eq_ok]
    constructor
    · rintro ⟨_, hts, -, -, rfl⟩
      exact ⟨ts, hts, written_of_tokens_strip htokens⟩
    · rintro ⟨us, hus, hw⟩
      obtain rfl : ts = us := by simpa [htokens] using hus.legible.tokens_strip hw
      exact ⟨c, hus, (), hus.shaped.check, rfl⟩

/-- A bare text is no wrapper: no token begins with a dollar sign. -/
theorem IsBare.unwrap? {c : Condition} {cs : List Char} (h : IsBare c cs) : unwrap? cs = none := by
  obtain ⟨ts, hts, hw⟩ := h
  have htokens := hts.legible.tokens_strip hw
  by_contra hne
  obtain ⟨inner, hinner⟩ := Option.ne_none_iff_exists'.1 hne
  rw [unwrap?_eq_some_iff_strip.1 hinner] at htokens
  exact absurd ((tokens_dollar _).symm.trans htokens) (by simp)

/-- A text is read as a tree exactly when it is a layout of it. -/
theorem parse_eq_ok_iff_isLayout {s : String} {c : Condition} :
    parse s = .ok c ↔ IsLayout c s.toList := by
  rw [parse_eq_ok]
  constructor
  · intro h
    cases hw : unwrap? s.toList with
    | none => exact .bare (by simpa [hw] using h)
    | some inner =>
      obtain ⟨before, after, hb, ha, hs⟩ := unwrap?_eq_some.1 hw
      rw [hs]
      exact .wrapped hb (by simpa [hw] using h) ha
  · intro h
    generalize s.toList = cs at h
    cases h with
    | bare h => simpa [h.unwrap?] using h
    | @wrapped before inner after hb h ha =>
      have hw : unwrap? _ = some inner := unwrap?_eq_some.2 ⟨before, after, hb, ha, rfl⟩
      simpa only [hw, Option.getD_some] using h

/-- Every shaped tree has a layout: its tokens one behind the other. -/
theorem Shaped.exists_layout {c : Condition} (h : Shaped c) : ∃ s : String, IsLayout c s.toList := by
  obtain ⟨ts, hts⟩ := h.spelled
  refine ⟨String.ofList (ts.flatMap Token.spelling), .bare ⟨ts, .single (.single (.primary hts)), ?_⟩⟩
  rw [String.toList_ofList]
  clear hts
  induction ts with
  | nil => exact .nil .nil
  | cons t ts ih => exact .cons .nil ih

theorem IsLayout.shaped {c : Condition} {cs : List Char} (h : IsLayout c cs) : Shaped c := by
  cases h with
  | bare h => exact h.choose_spec.1.shaped
  | wrapped _ h _ => exact h.choose_spec.1.shaped

/-- What reading refuses is a fault of the text, and what it accepts passes the check. -/
theorem parse_calm (s : String) : Calm Cause.ofCondition (parse s) := by
  rw [parse]
  split
  · exact .error rfl
  · next ts _ =>
    refine (readAll_calm _ ts).bind fun c hc => ?_
    rw [(readAll_eq_ok.1 hc).shaped.check]
    exact .ok

/-- **Reading follows the grammar.** A text is read as a tree exactly when it is a layout of that
tree. No text is a layout of two trees, the trees that have layouts are the shaped ones, and a text
that is no layout is refused as a condition. -/
theorem parse_reads_layouts :
    (∀ (s : String) (c : Condition), parse s = .ok c ↔ IsLayout c s.toList) ∧
    (∀ (s : String) (c d : Condition), IsLayout c s.toList → IsLayout d s.toList → c = d) ∧
    (∀ c : Condition, Shaped c ↔ ∃ s : String, IsLayout c s.toList) ∧
    (∀ s : String, (∀ c, ¬ IsLayout c s.toList) →
      ∃ cause, parse s = .error cause ∧
        ∀ job, (Rejection.ofCondition cause job).cause.kind = "ConditionError") := by
  refine ⟨fun s c => parse_eq_ok_iff_isLayout, ?_, ?_, ?_⟩
  · intro s c d hc hd
    have hread := parse_eq_ok_iff_isLayout.2 hc
    rw [parse_eq_ok_iff_isLayout.2 hd] at hread
    exact (Except.ok.inj hread).symm
  · intro c
    exact ⟨Shaped.exists_layout, fun ⟨_, h⟩ => h.shaped⟩
  · intro s hs
    cases h : parse s with
    | ok c => exact absurd (parse_eq_ok_iff_isLayout.1 h) (hs c)
    | error cause => exact ⟨cause, rfl, (parse_calm s).kind h⟩

end Condition

end MergeGate
