/-
Reading the tokens of a text, against the way tokens are written. What `tokens` reads is always
written in the text (`written_of_tokens`), and legible tokens are read back from every text in which
they are written (`Written.tokens`): a token ends where the next character cannot belong to it, and
in a spelling no token can reach into the one behind it.
-/
import Mathlib.Data.List.TakeWhile
import MergeGate.Proofs.Basic
import MergeGate.Proofs.Condition.Grammar

namespace MergeGate.Condition

open Text (isBlank dropBlanks dropBlanksRight strip dropStart?)

/-! ## Blanks -/

theorem Blank.nil : Blank [] := by simp [Blank]

theorem Blank.append {gap gap' : List Char} (h : Blank gap) (h' : Blank gap') :
    Blank (gap ++ gap') :=
  List.forall_mem_append.2 ⟨h, h'⟩

theorem Blank.dropBlanks_append {gap : List Char} (h : Blank gap) (cs : List Char) :
    dropBlanks (gap ++ cs) = dropBlanks cs :=
  List.dropWhile_append_of_pos h

theorem Blank.dropBlanks {gap : List Char} (h : Blank gap) : dropBlanks gap = [] := by
  simpa [Text.dropBlanks] using h.dropBlanks_append []

theorem Blank.dropBlanksRight {gap : List Char} (h : Blank gap) : dropBlanksRight gap = [] := by
  have hrev : Blank gap.reverse := fun c hc => h c (List.mem_reverse.1 hc)
  have := hrev.dropBlanks
  simp only [Text.dropBlanks] at this
  simp [Text.dropBlanksRight, this]

/-- Only blanks are taken off the front. -/
theorem exists_blank_append (cs : List Char) : ∃ gap, Blank gap ∧ cs = gap ++ dropBlanks cs :=
  ⟨cs.takeWhile isBlank, fun _ hc => List.mem_takeWhile_imp hc,
    List.takeWhile_append_dropWhile.symm⟩

/-- Only blanks are taken off the end. -/
theorem exists_append_blank (cs : List Char) :
    ∃ gap, Blank gap ∧ cs = dropBlanksRight cs ++ gap := by
  obtain ⟨gap, hgap, h⟩ := exists_blank_append cs.reverse
  refine ⟨gap.reverse, fun c hc => hgap c (List.mem_reverse.1 hc), ?_⟩
  rw [dropBlanksRight, ← List.reverse_append, ← dropBlanks, ← h, List.reverse_reverse]

/-- A text whose first and last characters are no blanks. -/
structure Solid (cs : List Char) : Prop where
  first : ∃ c rest, cs = c :: rest ∧ isBlank c = false
  last : ∃ rest c, cs = rest ++ [c] ∧ isBlank c = false

theorem Solid.dropBlanks {cs : List Char} (h : Solid cs) (more : List Char) :
    dropBlanks (cs ++ more) = cs ++ more := by
  obtain ⟨c, rest, rfl, hc⟩ := h.first
  simp [Text.dropBlanks, hc]

/-- Blanks at the end are taken off what follows the last character that is none. -/
theorem Solid.dropBlanksRight {cs : List Char} (h : Solid cs) (pre more : List Char) :
    dropBlanksRight (pre ++ (cs ++ more)) = pre ++ (cs ++ dropBlanksRight more) := by
  obtain ⟨rest, c, rfl, hc⟩ := h.last
  simp only [Text.dropBlanksRight, List.reverse_append, List.append_assoc]
  rw [List.dropWhile_append]
  split
  · next hnil =>
    rw [List.isEmpty_iff] at hnil
    simp [hnil, hc]
  · simp

theorem Solid.strip {cs before after : List Char} (h : Solid cs) (hb : Blank before)
    (ha : Blank after) : strip (before ++ (cs ++ after)) = cs := by
  rw [Text.strip, hb.dropBlanks_append, h.dropBlanks]
  simpa [ha.dropBlanksRight] using h.dropBlanksRight [] after

/-! ## The wrapper -/

theorem dropStart?_eq_some {start cs rest : List Char} :
    dropStart? start cs = some rest ↔ cs = start ++ rest := by
  fun_induction dropStart? start cs with
  | case1 cs => simp
  | case2 => simp
  | case3 a start cs ih => simpa using ih
  | case4 a start b cs hne =>
    simp only [List.cons_append, List.cons.injEq, reduceCtorEq, false_iff, not_and]
    intro h
    exact absurd h.symm hne

/-- The wrapper is looked for in the text without blanks at its ends. -/
theorem unwrap?_eq_some_iff_strip {cs inner : List Char} :
    unwrap? cs = some inner ↔
      strip cs = ['$', '\x7b', '\x7b'] ++ (inner ++ ['\x7d', '\x7d']) := by
  simp only [unwrap?, Option.bind_eq_bind, Option.bind_eq_some_iff, Option.pure_def,
    Option.some.injEq, dropStart?_eq_some]
  constructor
  · rintro ⟨a, ha, b, hb, rfl⟩
    rw [ha, ← a.reverse_reverse, hb]
    simp
  · intro h
    exact ⟨_, h, inner.reverse, by simp, by simp⟩

/-- The inside of a wrapper, with nothing but blanks outside. -/
theorem unwrap?_eq_some {cs inner : List Char} :
    unwrap? cs = some inner ↔ ∃ before after, Blank before ∧ Blank after ∧
      cs = before ++ (['$', '\x7b', '\x7b'] ++ (inner ++ (['\x7d', '\x7d'] ++ after))) := by
  rw [unwrap?_eq_some_iff_strip]
  constructor
  · intro h
    obtain ⟨before, hbefore, hcs⟩ := exists_blank_append cs
    obtain ⟨after, hafter, hright⟩ := exists_append_blank (dropBlanks cs)
    refine ⟨before, after, hbefore, hafter, ?_⟩
    rw [hcs, hright, ← Text.strip, h]
    simp
  · rintro ⟨before, after, hbefore, hafter, rfl⟩
    have hsolid : Solid (['$', '\x7b', '\x7b'] ++ (inner ++ ['\x7d', '\x7d'])) := by
      refine ⟨⟨_, _, rfl, by decide⟩, ?_⟩
      exact ⟨['$', '\x7b', '\x7b'] ++ (inner ++ ['\x7d']), '\x7d', by simp, by decide⟩
    simpa using hsolid.strip hbefore hafter

/-! ## One token -/

theorem isAlphanum_eq (c : Char) : c.isAlphanum = (decide (c.val ≥ 'A'.val ∧ c.val ≤ 'Z'.val) ||
    (decide (c.val ≥ 'a'.val) && decide (c.val ≤ 'z'.val)) ||
    (decide (c.val ≥ '0'.val) && decide (c.val ≤ '9'.val))) := rfl

theorem isBlank_of_isNameRest {c : Char} (h : isNameRest c = true) : isBlank c = false := by
  have hcode : (65 ≤ c.toNat ∧ c.toNat ≤ 90) ∨ (97 ≤ c.toNat ∧ c.toNat ≤ 122) ∨
      (45 ≤ c.toNat ∧ c.toNat ≤ 57) ∨ c.toNat = 95 := by
    simp only [isNameRest, isAlphanum_eq, Bool.or_eq_true, Bool.and_eq_true, decide_eq_true_eq, beq_iff_eq,
      UInt32.le_iff_toNat_le, ← Char.toNat_val, Char.reduceVal, UInt32.reduceToNat, ge_iff_le] at h ⊢
    rcases h with ((((h | h) | h) | rfl) | rfl) | rfl
    · omega
    · omega
    · omega
    all_goals decide
  simp only [isBlank, Text.inRanges, Text.blankRanges, List.any_cons, List.any_nil,
    Bool.or_false, Bool.or_eq_false_iff, Bool.and_eq_false_iff, decide_eq_false_iff_not]
  omega

theorem isNameRest_of_isNameStart {c : Char} (h : isNameStart c = true) : isNameRest c = true := by
  simp only [isNameStart, isNameRest, Char.isAlphanum, Bool.or_eq_true] at h ⊢
  tauto

theorem isNameRest_of_isName {cs : List Char} (h : isName cs = true) :
    ∀ c ∈ cs, isNameRest c = true := by
  cases cs with
  | nil => simp
  | cons a cs =>
    simp only [isName, Bool.and_eq_true, List.all_eq_true] at h
    intro c hc
    rcases List.mem_cons.1 hc with rfl | hc
    · exact isNameRest_of_isNameStart h.1
    · exact h.2 c hc

theorem isName_ne_nil {cs : List Char} (h : isName cs = true) : cs ≠ [] := by
  rintro rfl
  simp [isName] at h

theorem solid_of_forall {cs : List Char} (hne : cs ≠ []) (h : ∀ c ∈ cs, isBlank c = false) :
    Solid cs := by
  constructor
  · obtain ⟨c, rest, rfl⟩ := List.exists_cons_of_ne_nil hne
    exact ⟨c, rest, rfl, h c (by simp)⟩
  · exact ⟨_, _, (List.dropLast_concat_getLast hne).symm, h _ (List.getLast_mem hne)⟩

theorem Token.Proper.solid {t : Token} (h : t.Proper) : Solid t.spelling := by
  cases t with
  | mark m =>
    have hall : (Token.mark m).spelling.all (fun c => !isBlank c) = true := by cases m <;> decide
    have hne : (Token.mark m).spelling ≠ [] := by cases m <;> decide
    exact solid_of_forall hne (by simpa using hall)
  | text s =>
    exact ⟨⟨_, _, rfl, by decide⟩, ⟨'\'' :: doubled s.toList, '\'', by simp [spelling], by decide⟩⟩
  | name s =>
    exact solid_of_forall (isName_ne_nil h)
      fun c hc => isBlank_of_isNameRest (isNameRest_of_isName h c hc)

theorem readText?_eq_some {cs body after : List Char} (h : readText? cs = some (body, after)) :
    cs = doubled body ++ '\'' :: after := by
  fun_induction readText? cs generalizing body after with
  | case1 => simp at h
  | case2 rest b a hr ih =>
    simp only [Option.some.injEq, Prod.mk.injEq] at h
    obtain ⟨rfl, rfl⟩ := h
    simp [doubled, ih hr]
  | case3 rest hr =>
    simp only [Option.some.injEq, Prod.mk.injEq] at h
    obtain ⟨rfl, rfl⟩ := h
    simp [doubled]
  | case4 rest _ =>
    simp only [Option.some.injEq, Prod.mk.injEq] at h
    obtain ⟨rfl, rfl⟩ := h
    simp [doubled]
  | case5 c rest _ hc ih =>
    simp only [Option.map_eq_some_iff, Prod.mk.injEq] at h
    obtain ⟨⟨b, a⟩, hr, rfl, rfl⟩ := h
    have hne : c ≠ '\'' := hc
    simp [doubled, hne, ih hr]

/-- A quoted text is read to its end, when no further apostrophe stands behind it. -/
theorem readText?_doubled {after : List Char} (ha : ∀ c ∈ after.head?, c ≠ '\'') :
    ∀ body : List Char, readText? (doubled body ++ '\'' :: after) = some (body, after)
  | [] => by
    cases after with
    | nil => simp [doubled, readText?]
    | cons c after =>
      have hc : c ≠ '\'' := ha c (by simp)
      simp [doubled, readText?, hc]
  | c :: body => by
    have ih := readText?_doubled ha body
    by_cases hc : c = '\''
    · subst hc
      simp only [doubled, List.flatMap_cons, if_true, List.cons_append, List.nil_append,
        readText?] at ih ⊢
      rw [ih]
    · simp only [doubled, List.flatMap_cons, hc, if_false, List.cons_append, List.nil_append] at ih ⊢
      simp [readText?, hc, ih]

theorem readMark?_eq_some {cs rest : List Char} {m : Mark} (h : readMark? cs = some (m, rest)) :
    cs = m.text.toList ++ rest := by
  unfold readMark? at h
  split at h <;> simp at h <;> (obtain ⟨rfl, rfl⟩ := h; rfl)

theorem readToken?_eq_some {cs rest : List Char} {t : Token} (h : readToken? cs = some (t, rest)) :
    cs = t.spelling ++ rest := by
  unfold readToken? at h
  split at h
  · next m r hm =>
    simp only [Option.some.injEq, Prod.mk.injEq] at h
    obtain ⟨rfl, rfl⟩ := h
    exact readMark?_eq_some hm
  · split at h
    · simp at h
    · next c r _ =>
      split at h
      · next hc =>
        simp only [Option.map_eq_some_iff, Prod.mk.injEq] at h
        obtain ⟨⟨body, after⟩, hr, rfl, rfl⟩ := h
        simp [Token.spelling, hc, readText?_eq_some hr]
      · split at h
        · simp only [Option.some.injEq, Prod.mk.injEq] at h
          obtain ⟨rfl, rfl⟩ := h
          simp [Token.spelling]
        · simp at h

theorem readMark?_of_isNameStart {c : Char} (h : isNameStart c = true) (cs : List Char) :
    readMark? (c :: cs) = none := by
  unfold readMark?
  split <;> simp_all [isNameStart]

theorem readToken?_spelling {t : Token} {rest : List Char} (ht : t.Proper)
    (hrest : ∀ c ∈ rest.head?, t.takes c = false) :
    readToken? (t.spelling ++ rest) = some (t, rest) := by
  cases t with
  | mark m =>
    have hm : readMark? (m.text.toList ++ rest) = some (m, rest) := by
      cases m with
      | not =>
        cases rest with
        | nil => rfl
        | cons c rest =>
          have hc : c ≠ '=' := by simpa [Token.takes] using hrest
          simp [Mark.text, readMark?, hc]
      | _ => rfl
    simp [Token.spelling, readToken?, hm]
  | text s =>
    have hne : ∀ c ∈ rest.head?, c ≠ '\'' := by simpa [Token.takes] using hrest
    have hm : ∀ cs, readMark? ('\'' :: cs) = none := fun cs => rfl
    simp [Token.spelling, readToken?, hm, readText?_doubled hne]
  | name s =>
    simp only [Token.Proper] at ht
    simp only [Token.takes] at hrest
    cases hs : s.toList with
    | nil => simp [hs, isName] at ht
    | cons c cs =>
      simp only [hs, isName, Bool.and_eq_true, List.all_eq_true] at ht
      have hquote : c ≠ '\'' := by
        rintro rfl
        simp [isNameStart] at ht
      have htake : rest.takeWhile isNameRest = [] := by cases rest <;> simp_all
      have hdrop : rest.dropWhile isNameRest = rest := by cases rest <;> simp_all
      have hname : s = String.ofList (c :: cs) := by rw [← hs, String.ofList_toList]
      simp only [Token.spelling, hs, List.cons_append, readToken?, readMark?_of_isNameStart ht.1,
        hquote, ht.1, if_false, if_true, List.takeWhile_append_of_pos ht.2,
        List.dropWhile_append_of_pos ht.2, htake, hdrop, List.append_nil]
      rw [hname]

theorem Written.blank_append {ts : List Token} {gap cs : List Char} (hgap : Blank gap)
    (h : Written ts cs) : Written ts (gap ++ cs) := by
  cases h with
  | nil h => exact .nil (hgap.append h)
  | cons h hw =>
    rw [← List.append_assoc]
    exact .cons (hgap.append h) hw

theorem Written.append_blank {ts : List Token} {gap cs : List Char} (h : Written ts cs)
    (hgap : Blank gap) : Written ts (cs ++ gap) := by
  induction h with
  | nil h => exact .nil (h.append hgap)
  | cons h _ ih =>
    rw [List.append_assoc, List.append_assoc]
    exact .cons h ih

/-- What is read as tokens has these tokens written in it. -/
theorem written_of_tokens {cs : List Char} {ts : List Token} (h : tokens cs = .ok ts) :
    Written ts cs := by
  fun_induction tokens cs generalizing ts with
  | case1 cs hempty =>
    obtain rfl : ts = [] := by simpa using h.symm
    obtain rfl : cs = [] := by simpa using hempty
    exact .nil .nil
  | case2 => simp at h
  | case3 cs _ t rest hread ih =>
    obtain ⟨us, hus, rfl⟩ := map_eq_ok.1 h
    obtain ⟨gap, hgap, hcs⟩ := exists_blank_append cs
    rw [hcs, readToken?_eq_some hread]
    exact .cons hgap (ih hus)

theorem written_of_tokens_strip {cs : List Char} {ts : List Token}
    (h : tokens (strip cs) = .ok ts) : Written ts cs := by
  obtain ⟨before, hbefore, hcs⟩ := exists_blank_append cs
  obtain ⟨after, hafter, hright⟩ := exists_append_blank (dropBlanks cs)
  rw [hcs, hright]
  exact ((written_of_tokens h).append_blank hafter).blank_append hbefore

theorem Token.takes_of_isBlank (t : Token) {c : Char} (h : isBlank c = true) :
    t.takes c = false := by
  have heq : c ≠ '=' := by rintro rfl; revert h; decide
  have hquote : c ≠ '\'' := by rintro rfl; revert h; decide
  cases t with
  | mark m => cases m <;> simp [takes, heq]
  | text s => simp [takes, hquote]
  | name s =>
    by_contra hname
    have := isBlank_of_isNameRest (by simpa [takes] using hname)
    simp [h] at this

/-- A token does not reach into the text behind it, where a token that may follow it is written. -/
theorem Written.not_takes {t : Token} {ts : List Token} {cs : List Char} (h : Written ts cs)
    (hf : ∀ u ∈ ts.head?, t.Follows u) (hp : ∀ u ∈ ts, u.Proper) :
    ∀ c ∈ cs.head?, t.takes c = false := by
  intro c hc
  cases h with
  | nil hgap => exact t.takes_of_isBlank (hgap c (List.mem_of_mem_head? hc))
  | @cons gap u _ _ hgap _ =>
    cases gap with
    | cons a gap =>
      obtain rfl : a = c := by simpa using hc
      exact t.takes_of_isBlank (hgap a (by simp))
    | nil =>
      obtain ⟨a, rest, hu, _⟩ := (hp u (by simp)).solid.first
      obtain rfl : a = c := by simpa [hu] using hc
      exact hf u (by simp) a (by simp [hu])

theorem tokens_of_readToken? {cs rest : List Char} {t : Token}
    (h : readToken? (dropBlanks cs) = some (t, rest)) :
    tokens cs = (tokens rest).map (t :: ·) := by
  have hne : cs.isEmpty = false := by
    cases cs with
    | nil => simp [Text.dropBlanks, readToken?, readMark?] at h
    | cons c cs => rfl
  rw [Condition.tokens]
  simp only [hne, Bool.false_eq_true, if_false]
  split
  · next hnone => simp [h] at hnone
  · next u more hsome =>
    rw [h] at hsome
    obtain ⟨rfl, rfl⟩ : t = u ∧ rest = more := by simpa using hsome
    rfl

/-- Legible tokens are read back from every text in which they are written. -/
theorem Written.tokens {ts : List Token} {cs : List Char} (h : Written ts cs)
    (hp : ∀ t ∈ ts, t.Proper) (ha : ts.IsChain Token.Follows) :
    tokens (dropBlanksRight cs) = .ok ts := by
  induction h with
  | nil hgap => rw [hgap.dropBlanksRight, Condition.tokens]; rfl
  | @cons gap t ts cs hgap hw ih =>
    have htp := hp t (by simp)
    have hsp : ∀ u ∈ ts, u.Proper := fun u hu => hp u (by simp [hu])
    obtain ⟨hfollow, hchain⟩ := List.isChain_cons.1 ha
    rw [htp.solid.dropBlanksRight]
    have hread : readToken? (dropBlanks (gap ++ (t.spelling ++ dropBlanksRight cs))) =
        some (t, dropBlanksRight cs) := by
      rw [hgap.dropBlanks_append, htp.solid.dropBlanks]
      apply readToken?_spelling htp
      intro c hc
      -- what is left of the blanks at the end still begins as before
      obtain ⟨after, _, hcs⟩ := exists_append_blank cs
      refine hw.not_takes hfollow hsp c ?_
      rw [hcs]
      cases hd : dropBlanksRight cs with
      | nil => simp [hd] at hc
      | cons a rest => simpa [hd] using hc
    rw [tokens_of_readToken? hread, ih hsp hchain]
    rfl

theorem Written.dropBlanks {ts : List Token} {cs : List Char} (h : Written ts cs)
    (hp : ∀ t ∈ ts, t.Proper) : Written ts (dropBlanks cs) := by
  cases h with
  | nil hgap => rw [hgap.dropBlanks]; exact .nil .nil
  | @cons gap t _ _ hgap hw =>
    rw [hgap.dropBlanks_append, (hp t (by simp)).solid.dropBlanks]
    exact .cons .nil hw

theorem Legible.tokens_strip {ts : List Token} (h : Legible ts) {cs : List Char}
    (hw : Written ts cs) : tokens (strip cs) = .ok ts :=
  (hw.dropBlanks h.proper).tokens h.proper h.apart

/-- No token begins with a dollar sign. -/
theorem tokens_dollar (cs : List Char) : tokens ('$' :: cs) = .error (cs.length + 1) := by
  have hread : readToken? (dropBlanks ('$' :: cs)) = none := rfl
  rw [tokens]
  split
  · next hempty => simp at hempty
  · split
    · rfl
    · next t rest hsome => simp [hread] at hsome

end MergeGate.Condition
