/-
A scanner for conditions that never goes back: it takes one character after the other (`Stage.next`),
and all it knows of the text behind it is its stage. So a mark of two characters is preferred to `!`, a
name is as long as it can be, and a literal ends at the first apostrophe that no second one follows.

`tokens` reads a literal that nothing closes as a shorter one: it splits the last doubled pair. What is
left then begins with an apostrophe and holds no other (`readText?_split`), so nothing can be made of it,
and the scanner, which is still inside the literal, stops at the end of the text. In all other respects
the two go side by side, token by token (`readToken?_scanned`), and read the same
(`tokens_iff_scan`).
-/
import MergeGate.Proofs.Condition.Layout

namespace MergeGate.Condition

open Text (isBlank dropBlanks dropBlanksRight strip)

/-! ## The scanner -/

/-- Where the scanner stands between two characters, with what it has read of an unfinished token. -/
inductive Stage where
  | between
  /-- behind the first character of a mark that has two -/
  | half (m : Mark)
  /-- behind an exclamation mark -/
  | bang
  | name (read : List Char)
  | literal (read : List Char)
  /-- in a literal, behind an apostrophe that may be the first of a pair -/
  | quote (read : List Char)

/-- Why the scanner stops. -/
inductive Stop where
  /-- no token goes on here, and none begins -/
  | stray
  /-- the text ends inside a literal -/
  | unclosed
  deriving DecidableEq

/-- A sign where a token may begin: the tokens it completes, and where the scanner stands next. -/
def Stage.sign : Char → Except Stop (List Token × Stage)
  | '\'' => .ok ([], literal [])
  | '=' => .ok ([], half .eq)
  | '&' => .ok ([], half .and)
  | '|' => .ok ([], half .or)
  | '!' => .ok ([], bang)
  | '(' => .ok ([.mark .opening], between)
  | ')' => .ok ([.mark .closing], between)
  | ',' => .ok ([.mark .comma], between)
  | _ => .error .stray

/-- Any character where a token may begin. -/
def Stage.start (c : Char) : Except Stop (List Token × Stage) :=
  if isBlank c then .ok ([], between)
  else if isNameStart c then .ok ([], name [c])
  else sign c

/-- A character behind a token that it does not belong to. -/
def Stage.behind (t : Token) (c : Char) : Except Stop (List Token × Stage) :=
  (start c).map fun r => (t :: r.1, r.2)

/-- One character: the tokens it completes, and where the scanner stands next. -/
def Stage.next : Stage → Char → Except Stop (List Token × Stage)
  | between, c => start c
  | half m, c => if m.text.toList.getLast? = some c then .ok ([.mark m], between) else .error .stray
  | bang, c => if c = '=' then .ok ([.mark .ne], between) else behind (.mark .not) c
  | name cs, c =>
    if isNameRest c then .ok ([], name (cs ++ [c])) else behind (.name (String.ofList cs)) c
  | literal cs, c => .ok ([], if c = '\'' then quote cs else literal (cs ++ [c]))
  | quote cs, c =>
    if c = '\'' then .ok ([], literal (cs ++ [c])) else behind (.text (String.ofList cs)) c

/-- The end of the text: the token it completes. -/
def Stage.finish : Stage → Except Stop (List Token)
  | between => .ok []
  | half _ => .error .stray
  | bang => .ok [.mark .not]
  | name cs => .ok [.name (String.ofList cs)]
  | literal _ => .error .unclosed
  | quote cs => .ok [.text (String.ofList cs)]

/-- The tokens that the scanner finds from a stage on. -/
def Stage.scan : Stage → List Char → Except Stop (List Token)
  | st, [] => st.finish
  | st, c :: cs => match st.next c with
    | .error stop => .error stop
    | .ok (ts, st) => (st.scan cs).map (ts ++ ·)

/-- The tokens of a text. -/
def scan (cs : List Char) : Except Stop (List Token) := Stage.between.scan cs

/-- An apostrophe behind whole tokens opens a literal, and to the end of the text every further one is
one of a pair. -/
def Unclosed (cs : List Char) : Prop :=
  ∃ before ts body, scan before = .ok ts ∧ cs = before ++ '\'' :: doubled body

namespace Stage

theorem scan_cons_of_next {a b : Stage} {c : Char} {ts : List Token} (h : a.next c = .ok (ts, b))
    (cs : List Char) : a.scan (c :: cs) = (b.scan cs).map (ts ++ ·) := by
  simp only [scan, h]

theorem scan_cons_of_error {a : Stage} {c : Char} {e : Stop} (h : a.next c = .error e)
    (cs : List Char) : a.scan (c :: cs) = .error e := by
  simp only [scan, h]

/-- A character that completes nothing. -/
theorem scan_cons_of_silent {a b : Stage} {c : Char} (h : a.next c = .ok ([], b)) (cs : List Char) :
    a.scan (c :: cs) = b.scan cs := by
  rw [scan_cons_of_next h]
  cases b.scan cs <;> rfl

/-- Behind a token that nothing more belongs to, the scanner begins anew. -/
theorem scan_behind {st : Stage} {t : Token} (hend : st.finish = .ok [t]) {cs : List Char}
    (hnext : ∀ c ∈ cs.head?, st.next c = behind t c) :
    st.scan cs = (between.scan cs).map (t :: ·) := by
  cases cs with
  | nil => rw [scan, hend]; rfl
  | cons c cs =>
    have hc : st.next c = behind t c := hnext c (by simp)
    cases hs : start c with
    | error stop =>
      rw [scan_cons_of_error (by rw [hc, behind, hs]; rfl), scan_cons_of_error (by rw [next, hs])]
      rfl
    | ok r =>
      rw [scan_cons_of_next (by rw [hc, behind, hs]; rfl), scan_cons_of_next (by rw [next, hs])]
      cases r.2.scan cs <;> rfl

/-! ## Blanks -/

theorem start_of_isBlank {c : Char} (h : isBlank c = true) : start c = .ok ([], between) := by
  rw [start, if_pos h]

theorem scan_blank_append {gap : List Char} (h : Blank gap) (cs : List Char) :
    between.scan (gap ++ cs) = between.scan cs := by
  induction gap with
  | nil => rfl
  | cons c gap ih =>
    have hc : isBlank c = true := h c (by simp)
    rw [List.cons_append, scan_cons_of_silent (a := between) (start_of_isBlank hc)]
    exact ih fun d hd => h d (by simp [hd])

/-- A blank ends a text as its end does. -/
theorem scan_blank : ∀ {gap : List Char}, Blank gap → ∀ st : Stage, st.scan gap = st.finish
  | [], _, _ => rfl
  | c :: gap, h, st => by
    have hc : isBlank c = true := h c (by simp)
    have hgap : Blank gap := fun d hd => h d (by simp [hd])
    have hbehind : ∀ t, behind t c = .ok ([t], between) := by
      intro t
      rw [behind, start_of_isBlank hc]
      rfl
    have heq : c ≠ '=' := by rintro rfl; revert hc; decide
    have hquote : c ≠ '\'' := by rintro rfl; revert hc; decide
    cases st with
    | between => rw [scan_cons_of_silent (a := between) (start_of_isBlank hc), scan_blank hgap]
    | half m =>
      have hm : m.text.toList.getLast? ≠ some c := by
        intro hlast
        have hall : m.text.toList.getLast?.all (fun d => !isBlank d) = true := by cases m <;> decide
        simp [hlast, hc] at hall
      rw [scan_cons_of_error (e := .stray) (by rw [next, if_neg hm])]
      rfl
    | bang =>
      rw [scan_cons_of_next (by rw [next, if_neg heq, hbehind]), scan_blank hgap]
      rfl
    | name cs =>
      have hname : ¬ isNameRest c = true := by
        intro hn
        simp [isBlank_of_isNameRest hn] at hc
      rw [scan_cons_of_next (by rw [next, if_neg hname, hbehind]), scan_blank hgap]
      rfl
    | literal cs =>
      rw [scan_cons_of_silent (by rw [next, if_neg hquote]), scan_blank hgap]
      rfl
    | quote cs =>
      rw [scan_cons_of_next (by rw [next, if_neg hquote, hbehind]), scan_blank hgap]
      rfl

theorem scan_append_blank {gap : List Char} (h : Blank gap) : ∀ (st : Stage) (cs : List Char),
    st.scan (cs ++ gap) = st.scan cs
  | st, [] => scan_blank h st
  | st, c :: cs => by
    simp only [List.cons_append, scan]
    cases st.next c with
    | error stop => rfl
    | ok r => simp only [scan_append_blank h r.2 cs]

/-! ## Marks, names and literals -/

/-- Half a mark is none. -/
theorem scan_half_stray {m : Mark} {cs : List Char}
    (h : ∀ c ∈ cs.head?, m.text.toList.getLast? ≠ some c) : (half m).scan cs = .error .stray := by
  cases cs with
  | nil => rfl
  | cons c cs => exact scan_cons_of_error (by rw [next, if_neg (h c (by simp))]) cs

/-- A name is read as far as it goes. -/
theorem scan_name : ∀ read cs : List Char, (name read).scan cs =
    (between.scan (cs.dropWhile isNameRest)).map
      (.name (String.ofList (read ++ cs.takeWhile isNameRest)) :: ·)
  | read, [] => by
    rw [scan_behind rfl (by simp)]
    simp
  | read, c :: cs => by
    by_cases hc : isNameRest c
    · rw [scan_cons_of_silent (by rw [next, if_pos hc]), scan_name]
      simp [hc]
    · rw [scan_behind (t := .name (String.ofList read)) rfl (by simp [next, hc])]
      simp [hc]

/-- Doubled apostrophes do not end a literal. -/
theorem scan_doubled : ∀ body read more : List Char,
    (literal read).scan (doubled body ++ more) = (literal (read ++ body)).scan more
  | [], read, more => by simp [doubled]
  | c :: body, read, more => by
    by_cases hc : c = '\''
    · subst hc
      have hpair : doubled ('\'' :: body) = '\'' :: '\'' :: doubled body := rfl
      rw [hpair, List.cons_append, List.cons_append, scan_cons_of_silent (b := quote read) rfl,
        scan_cons_of_silent (b := literal (read ++ ['\''])) rfl, scan_doubled, List.append_assoc]
      rfl
    · have hone : doubled (c :: body) = c :: doubled body := by simp [doubled, hc]
      rw [hone, List.cons_append, scan_cons_of_silent (by rw [next, if_neg hc]), scan_doubled,
        List.append_assoc]
      rfl

/-- A literal that nothing closes is read to the end of the text. -/
theorem scan_unclosed (read body : List Char) : (literal read).scan (doubled body) = .error .unclosed := by
  have h := scan_doubled body read []
  rw [List.append_nil] at h
  rw [h]
  rfl

end Stage

/-! ## One token -/

theorem doubled_eq_self {cs : List Char} (h : '\'' ∉ cs) : doubled cs = cs := by
  induction cs with
  | nil => rfl
  | cons c cs ih =>
    simp only [List.mem_cons, not_or] at h
    have hc : c ≠ '\'' := fun he => h.1 he.symm
    have hrest := ih h.2
    simp only [doubled] at hrest
    simp [doubled, hc, hrest]

/-- A literal is found wherever an apostrophe follows. -/
theorem readText?_eq_none {cs : List Char} : readText? cs = none ↔ '\'' ∉ cs := by
  fun_induction readText? cs with
  | case1 => simp
  | case2 => simp
  | case3 => simp
  | case4 => simp
  | case5 c cs _ hc ih =>
    have hne : c ≠ '\'' := hc
    simp [ih, hne.symm]

/-- A literal ends where no further apostrophe follows, or else a pair was split, the last there is. -/
theorem readText?_split {cs body after : List Char} (h : readText? cs = some (body, after)) :
    (∀ c ∈ after.head?, c ≠ '\'') ∨ ∃ tail, after = '\'' :: tail ∧ '\'' ∉ tail := by
  fun_induction readText? cs generalizing body after with
  | case1 => simp at h
  | case2 rest b a hr ih =>
    simp only [Option.some.injEq, Prod.mk.injEq] at h
    exact h.2 ▸ ih hr
  | case3 rest hr =>
    simp only [Option.some.injEq, Prod.mk.injEq] at h
    exact .inr ⟨rest, h.2.symm, readText?_eq_none.1 hr⟩
  | case4 rest hrest =>
    simp only [Option.some.injEq, Prod.mk.injEq] at h
    left
    intro c hc he
    cases rest with
    | nil => simp [← h.2] at hc
    | cons d rest =>
      simp only [← h.2, List.head?_cons, Option.mem_some_iff] at hc
      exact hrest rest (by rw [hc, he])
  | case5 c cs _ hc ih =>
    simp only [Option.map_eq_some_iff, Prod.mk.injEq] at h
    obtain ⟨⟨b, a⟩, hr, -, rfl⟩ := h
    exact ih hr

theorem readMark?_scanned {cs rest : List Char} {m : Mark} (h : readMark? cs = some (m, rest)) :
    scan cs = (scan rest).map (.mark m :: ·) := by
  unfold readMark? at h
  split at h <;> simp only [Option.some.injEq, Prod.mk.injEq, reduceCtorEq] at h <;> obtain ⟨rfl, rfl⟩ := h
  case h_1 | h_3 | h_4 =>
    rw [scan, Stage.scan_cons_of_silent rfl, Stage.scan_cons_of_next rfl]
    rfl
  case h_2 =>
    rw [scan, Stage.scan_cons_of_silent (b := .bang) rfl, Stage.scan_cons_of_next rfl]
    rfl
  case h_5 cs hne =>
    rw [scan, Stage.scan_cons_of_silent (b := .bang) rfl]
    refine Stage.scan_behind rfl fun c hc => ?_
    have heq : c ≠ '=' := by
      rintro rfl
      obtain ⟨rest, rfl⟩ := List.head?_eq_some_iff.1 hc
      exact hne rest rfl
    rw [Stage.next, if_neg heq]
  case h_6 | h_7 | h_8 =>
    rw [scan, Stage.scan_cons_of_next rfl]
    rfl

/-- **One token.** The scanner finds the token that is read and goes on behind it; only where a pair was
split does it stop, and then what is left begins with the one apostrophe that it holds. -/
theorem readToken?_scanned {cs rest : List Char} {t : Token} (h : readToken? cs = some (t, rest)) :
    scan cs = (scan rest).map (t :: ·) ∨
      scan cs = .error .unclosed ∧ ∃ tail, rest = '\'' :: tail ∧ '\'' ∉ tail := by
  unfold readToken? at h
  split at h
  · next m r hm =>
    simp only [Option.some.injEq, Prod.mk.injEq] at h
    obtain ⟨rfl, rfl⟩ := h
    exact .inl (readMark?_scanned hm)
  · split at h
    · simp at h
    · next c cs _ =>
      split at h
      · next hc =>
        simp only [Option.map_eq_some_iff, Prod.mk.injEq] at h
        obtain ⟨⟨body, after⟩, hr, rfl, rfl⟩ := h
        have hin : scan (c :: cs) = (Stage.quote body).scan after := by
          rw [hc, scan, Stage.scan_cons_of_silent (b := .literal []) rfl, readText?_eq_some hr,
            Stage.scan_doubled, Stage.scan_cons_of_silent (b := .quote body) rfl]
        rw [hin]
        -- where a pair was split the scanner takes it whole, and finds no other end
        rcases readText?_split hr with hlone | ⟨tail, rfl, htail⟩
        · exact .inl (Stage.scan_behind rfl fun d hd => by rw [Stage.next, if_neg (hlone d hd)])
        · rw [Stage.scan_cons_of_silent (b := .literal (body ++ ['\''])) rfl, ← doubled_eq_self htail]
          exact .inr ⟨Stage.scan_unclosed _ _, tail, by rw [doubled_eq_self htail], htail⟩
      · split at h
        · next hc =>
          simp only [Option.some.injEq, Prod.mk.injEq] at h
          obtain ⟨rfl, rfl⟩ := h
          have hblank : ¬ isBlank c = true := by simp [isBlank_of_isNameRest (isNameRest_of_isNameStart hc)]
          have hstart : Stage.between.next c = .ok ([], .name [c]) := by
            rw [Stage.next, Stage.start, if_neg hblank, if_pos hc]
          rw [scan, Stage.scan_cons_of_silent hstart, Stage.scan_name]
          exact .inl rfl
        · simp at h

/-- A sign that begins no mark stops the scanner, at once or behind half a mark. -/
theorem scan_sign {c : Char} {cs : List Char} (hstart : Stage.start c = Stage.sign c) (hc : c ≠ '\'')
    (h : readMark? (c :: cs) = none) : ∃ stop, scan (c :: cs) = .error stop := by
  have hhalf : ∀ (m : Mark) (a : Char), Stage.sign c = .ok ([], .half m) →
      m.text.toList.getLast? = some a → (∀ rest, cs ≠ a :: rest) → ∃ stop, scan (c :: cs) = .error stop := by
    intro m a hm hlast hcs
    have hstray : (Stage.half m).scan cs = .error .stray := by
      refine Stage.scan_half_stray fun d hd he => ?_
      obtain ⟨rest, hrest⟩ := List.head?_eq_some_iff.1 hd
      obtain rfl : a = d := Option.some.inj (hlast.symm.trans he)
      exact hcs rest hrest
    rw [scan, Stage.scan_cons_of_silent (a := .between) (hstart.trans hm), hstray]
    exact ⟨_, rfl⟩
  unfold readMark? at h
  split at h
  case h_9 heq hne hand hor hnot hopening hclosing hcomma =>
    cases hs : Stage.sign c with
    | error stop => exact ⟨stop, Stage.scan_cons_of_error (a := .between) (hstart.trans hs) cs⟩
    | ok r =>
      unfold Stage.sign at hs
      split at hs
      case h_1 => exact absurd rfl hc
      case h_2 => exact hhalf .eq '=' rfl rfl fun rest he => heq rest (by rw [he])
      case h_3 => exact hhalf .and '&' rfl rfl fun rest he => hand rest (by rw [he])
      case h_4 => exact hhalf .or '|' rfl rfl fun rest he => hor rest (by rw [he])
      case h_5 => exact (hnot cs rfl).elim
      case h_6 => exact (hopening cs rfl).elim
      case h_7 => exact (hclosing cs rfl).elim
      case h_8 => exact (hcomma cs rfl).elim
      case h_9 => cases hs
  all_goals cases h

/-- Where no token can be read, the scanner stops as well. -/
theorem readToken?_eq_none_scanned {c : Char} {cs : List Char} (hc : isBlank c = false)
    (h : readToken? (c :: cs) = none) : ∃ stop, scan (c :: cs) = .error stop := by
  unfold readToken? at h
  split at h
  · simp at h
  · next hm =>
    simp only at h
    split at h
    · next hquote =>
      rw [Option.map_eq_none_iff, readText?_eq_none] at h
      rw [hquote, scan, Stage.scan_cons_of_silent (b := .literal []) rfl, ← doubled_eq_self h,
        Stage.scan_unclosed]
      exact ⟨_, rfl⟩
    · next hquote =>
      split at h
      · simp at h
      · next hname =>
        refine scan_sign ?_ hquote hm
        rw [Stage.start, if_neg (by simp [hc]), if_neg hname]

/-! ## Whole texts -/

/-- The text does not end in a blank. -/
def Trimmed (cs : List Char) : Prop := ∀ c ∈ cs.getLast?, isBlank c = false

theorem trimmed_dropBlanksRight (cs : List Char) : Trimmed (dropBlanksRight cs) := by
  intro c hc
  rw [dropBlanksRight, List.getLast?_reverse] at hc
  have hnot := List.head?_dropWhile_not isBlank cs.reverse
  rw [show (cs.reverse.dropWhile isBlank).head? = some c from hc] at hnot
  simpa using hnot

theorem Trimmed.of_append {pre cs : List Char} (h : Trimmed (pre ++ cs)) : Trimmed cs := by
  intro c hc
  refine h c ?_
  rw [List.getLast?_append, hc]
  rfl

/-- A trimmed text that is not empty does not consist of blanks. -/
theorem Trimmed.exists_dropBlanks {cs : List Char} (h : Trimmed cs) (hne : cs ≠ []) :
    ∃ c rest, dropBlanks cs = c :: rest ∧ isBlank c = false := by
  obtain ⟨gap, hgap, hcs⟩ := exists_blank_append cs
  cases hd : dropBlanks cs with
  | nil =>
    rw [hd, List.append_nil] at hcs
    have hlast : cs.getLast hne ∈ gap := hcs ▸ List.getLast_mem hne
    have hblank := hgap _ hlast
    rw [h _ (List.getLast?_eq_some_getLast hne)] at hblank
    cases hblank
  | cons c rest =>
    have hnot := List.head?_dropWhile_not isBlank cs
    rw [show cs.dropWhile isBlank = c :: rest from hd] at hnot
    exact ⟨c, rest, rfl, by simpa using hnot⟩

theorem scan_dropBlanks (cs : List Char) : scan (dropBlanks cs) = scan cs := by
  obtain ⟨gap, hgap, hcs⟩ := exists_blank_append cs
  have h := Stage.scan_blank_append hgap (dropBlanks cs)
  rw [← hcs] at h
  exact h.symm

theorem scan_dropBlanksRight (cs : List Char) : scan (dropBlanksRight cs) = scan cs := by
  obtain ⟨gap, hgap, hcs⟩ := exists_append_blank cs
  have h := Stage.scan_append_blank hgap .between (dropBlanksRight cs)
  rw [← hcs] at h
  exact h.symm

/-- Nothing can be made of an apostrophe that none follows. -/
theorem tokens_lone {tail : List Char} (h : '\'' ∉ tail) :
    tokens ('\'' :: tail) = .error ('\'' :: tail).length := by
  have hread : readToken? (dropBlanks ('\'' :: tail)) = none := by
    have hmark : readMark? ('\'' :: tail) = none := rfl
    have hdrop : dropBlanks ('\'' :: tail) = '\'' :: tail := rfl
    rw [hdrop, readToken?, hmark]
    simp [readText?_eq_none.2 h]
  rw [tokens]
  split
  · next hempty => simp at hempty
  · split
    · rfl
    · next t rest hsome => simp [hread] at hsome

/-- **The same tokens.** A text without blanks at its end is read exactly as it is scanned. -/
theorem Trimmed.tokens_iff_scan {cs : List Char} (h : Trimmed cs) (ts : List Token) :
    tokens cs = .ok ts ↔ scan cs = .ok ts := by
  fun_induction tokens cs generalizing ts with
  | case1 cs hempty =>
    have hnil : scan [] = .ok [] := rfl
    rw [List.isEmpty_iff.1 hempty, hnil]
    simp
  | case2 cs hempty hread =>
    obtain ⟨c, rest, hcs, hc⟩ := h.exists_dropBlanks (by simpa using hempty)
    obtain ⟨stop, hstop⟩ := readToken?_eq_none_scanned hc (hcs ▸ hread)
    rw [← scan_dropBlanks, hcs, hstop]
    simp
  | case3 cs hempty t rest hread ih =>
    have hrest : Trimmed rest := by
      obtain ⟨gap, -, hcs⟩ := exists_blank_append cs
      rw [hcs, readToken?_eq_some hread] at h
      exact h.of_append.of_append
    rw [← scan_dropBlanks]
    rcases readToken?_scanned hread with hscan | ⟨hscan, tail, rfl, htail⟩
    · rw [hscan, map_eq_ok, map_eq_ok]
      exact exists_congr fun us => and_congr_left fun _ => ih hrest us
    · rw [hscan, tokens_lone htail]
      simp [Except.map]

/-! ## Literals that nothing closes -/

namespace Stage

theorem start_ne_unclosed (c : Char) : start c ≠ .error .unclosed := by
  unfold start
  split
  · simp
  · split
    · simp
    · unfold sign
      split <;> simp

/-- Only an apostrophe opens a literal. -/
theorem eq_of_start {c : Char} {ts : List Token} {read : List Char}
    (h : start c = .ok (ts, literal read)) : c = '\'' := by
  unfold start at h
  split at h
  · simp at h
  · split at h
    · simp at h
    · unfold sign at h
      split at h <;> simp at h ⊢

theorem behind_ne_unclosed (t : Token) (c : Char) : behind t c ≠ .error .unclosed := by
  have hstart := start_ne_unclosed c
  unfold behind
  cases h : start c with
  | error stop => simpa [Except.map, h] using hstart
  | ok r => simp [Except.map]

theorem eq_of_behind {t : Token} {c : Char} {ts : List Token} {read : List Char}
    (h : behind t c = .ok (ts, literal read)) : c = '\'' := by
  obtain ⟨⟨us, st⟩, hstart, heq⟩ := map_eq_ok.1 h
  simp only [Prod.mk.injEq] at heq
  exact eq_of_start (heq.2 ▸ hstart)

theorem next_ne_unclosed (st : Stage) (c : Char) : st.next c ≠ .error .unclosed := by
  cases st with
  | between => exact start_ne_unclosed c
  | half m =>
    simp only [next]
    split <;> simp
  | bang =>
    simp only [next]
    split
    · simp
    · exact behind_ne_unclosed _ c
  | name cs =>
    simp only [next]
    split
    · simp
    · exact behind_ne_unclosed _ c
  | literal cs => simp [next]
  | quote cs =>
    simp only [next]
    split
    · simp
    · exact behind_ne_unclosed _ c

/-- The scanner gets into a literal by an apostrophe behind whole tokens, or is in one already. -/
theorem next_literal {st : Stage} {c : Char} {ts : List Token} {read : List Char}
    (h : st.next c = .ok (ts, literal read)) :
    (c = '\'' ∧ ∃ us, st.finish = .ok us) ∨ c ≠ '\'' ∧ ∃ read, st = literal read := by
  cases st with
  | between => exact .inl ⟨eq_of_start h, _, rfl⟩
  | half m =>
    simp only [next] at h
    split at h <;> simp at h
  | bang =>
    simp only [next] at h
    split at h
    · simp at h
    · exact .inl ⟨eq_of_behind h, _, rfl⟩
  | name cs =>
    simp only [next] at h
    split at h
    · simp at h
    · exact .inl ⟨eq_of_behind h, _, rfl⟩
  | literal cs =>
    simp only [next] at h
    split at h
    · simp at h
    · next hc => exact .inr ⟨hc, _, rfl⟩
  | quote cs =>
    simp only [next] at h
    split at h
    · next hc => exact .inl ⟨hc, _, rfl⟩
    · exact .inl ⟨eq_of_behind h, _, rfl⟩

/-- Behind whole tokens an apostrophe brings the scanner into a literal. -/
theorem scan_opened {st : Stage} {us : List Token} (h : st.finish = .ok us) (body : List Char) :
    st.scan ('\'' :: doubled body) = .error .unclosed := by
  have hin : ∃ ts read, st.next '\'' = .ok (ts, literal read) := by
    cases st with
    | half m => cases h
    | literal cs => cases h
    | _ => exact ⟨_, _, rfl⟩
  obtain ⟨ts, read, hnext⟩ := hin
  rw [scan_cons_of_next hnext, scan_unclosed]
  rfl

theorem scan_append_unclosed (body : List Char) : ∀ {st : Stage} {before : List Char} {ts : List Token},
    st.scan before = .ok ts → st.scan (before ++ '\'' :: doubled body) = .error .unclosed
  | st, [], ts, h => scan_opened h body
  | st, c :: before, ts, h => by
    cases hnext : st.next c with
    | error stop => simp [scan_cons_of_error hnext] at h
    | ok r =>
      rw [scan_cons_of_next hnext, map_eq_ok] at h
      obtain ⟨us, hus, -⟩ := h
      rw [List.cons_append, scan_cons_of_next hnext, scan_append_unclosed body hus]
      rfl

/-- Where the scanner ends inside a literal, it was in one from the start or has come into it. -/
theorem exists_of_scan_unclosed : ∀ {st : Stage} {cs : List Char}, st.scan cs = .error .unclosed →
    (∃ read body, st = literal read ∧ cs = doubled body) ∨
      ∃ before ts body, st.scan before = .ok ts ∧ cs = before ++ '\'' :: doubled body
  | st, [], h => by
    cases st with
    | literal read => exact .inl ⟨read, [], rfl, rfl⟩
    | _ => cases h
  | st, c :: cs, h => by
    cases hnext : st.next c with
    | error stop =>
      rw [scan_cons_of_error hnext, Except.error.injEq] at h
      exact absurd (h ▸ hnext) (next_ne_unclosed st c)
    | ok r =>
      obtain ⟨ts, st'⟩ := r
      have hrest : st'.scan cs = .error .unclosed := by
        rw [scan_cons_of_next hnext] at h
        cases hs : st'.scan cs with
        | error stop => simpa [hs, Except.map] using h
        | ok us => simp [hs, Except.map] at h
      rcases exists_of_scan_unclosed hrest with ⟨read, body, rfl, rfl⟩ | ⟨before, us, body, hus, rfl⟩
      · rcases next_literal hnext with ⟨rfl, vs, hvs⟩ | ⟨hc, read', rfl⟩
        · exact .inr ⟨[], vs, body, hvs, rfl⟩
        · exact .inl ⟨read', c :: body, rfl, by simp [doubled, hc]⟩
      · refine .inr ⟨c :: before, ts ++ us, body, ?_, rfl⟩
        rw [scan_cons_of_next hnext, hus]
        rfl

end Stage

/-- The scanner ends inside a literal exactly when the text has one that nothing closes. -/
theorem scan_eq_unclosed_iff {cs : List Char} : scan cs = .error .unclosed ↔ Unclosed cs := by
  constructor
  · intro h
    rcases Stage.exists_of_scan_unclosed h with ⟨read, body, hst, -⟩ | hcs
    · cases hst
    · exact hcs
  · rintro ⟨before, ts, body, hbefore, rfl⟩
    exact Stage.scan_append_unclosed body hbefore

theorem parse_of_scan_error {s : String} {stop : Stop}
    (h : scan ((unwrap? s.toList).getD s.toList) = .error stop) :
    ∃ place e, parse s = .error (.unexpectedCharacter place e) := by
  rw [← scan_dropBlanks, ← scan_dropBlanksRight] at h
  rw [parse]
  split
  · exact ⟨_, _, rfl⟩
  · next ts hts =>
    rw [strip, (trimmed_dropBlanksRight _).tokens_iff_scan, h] at hts
    cases hts

/-- **Reading needs no second look.** The tokens of a text are those of the scanner that never goes back,
and where it finds none, none are read. It ends inside a literal exactly when the text has one that nothing
closes; no such text is read, whatever shorter literal may be found in it, and as a condition it is
refused. -/
theorem tokens_scanned :
    (∀ (cs : List Char) (ts : List Token), tokens (dropBlanksRight cs) = .ok ts ↔ scan cs = .ok ts) ∧
    (∀ cs : List Char, scan cs = .error .unclosed ↔ Unclosed cs) ∧
    (∀ cs : List Char, Unclosed cs → ∃ left, tokens (dropBlanksRight cs) = .error left) ∧
    (∀ s : String, Unclosed ((unwrap? s.toList).getD s.toList) →
      ∃ place e, parse s = .error (.unexpectedCharacter place e) ∧
        ∀ job, (Rejection.ofCondition (.unexpectedCharacter place e) job).cause.kind = "ConditionError") := by
  have hsame : ∀ (cs : List Char) (ts : List Token),
      tokens (dropBlanksRight cs) = .ok ts ↔ scan cs = .ok ts := by
    intro cs ts
    rw [(trimmed_dropBlanksRight cs).tokens_iff_scan, scan_dropBlanksRight]
  refine ⟨hsame, fun cs => scan_eq_unclosed_iff, fun cs hcs => ?_, fun s hs => ?_⟩
  · cases htokens : tokens (dropBlanksRight cs) with
    | error left => exact ⟨left, rfl⟩
    | ok ts =>
      rw [hsame, scan_eq_unclosed_iff.2 hcs] at htokens
      cases htokens
  · obtain ⟨place, e, hparse⟩ := parse_of_scan_error (scan_eq_unclosed_iff.2 hs)
    exact ⟨place, e, hparse, fun job => rfl⟩

/-- In a text whose last literal is open, a shorter literal can be found; the text is refused all the
same. -/
theorem tokens_scanned_openLiteral :
    readText? "it''s".toList = some ("it".toList, "'s".toList) ∧ Unclosed "ref == 'it''s".toList ∧
      ∃ left, tokens (dropBlanksRight "ref == 'it''s".toList) = .error left := by
  have hopen : Unclosed "ref == 'it''s".toList := ⟨"ref == ".toList, _, "it's".toList, rfl, rfl⟩
  exact ⟨by decide, hopen, tokens_scanned.2.2.1 _ hopen⟩

end MergeGate.Condition
