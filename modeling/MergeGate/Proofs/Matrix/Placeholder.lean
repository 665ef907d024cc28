/-
Which placeholders a text holds, told without reading it, and what rendering makes of them. `Spells`
says how a placeholder may be written and `Occurs` where one stands. A placeholder has a single dollar
sign, its first character, so two of them never overlap (`Occurs.apart`), and every text is cut at its
placeholders and nowhere else (`exists_cut`). Rendering puts the texts of the values where the
placeholders stand and leaves the rest as it is, or fails with the first that has no text (`render_fills`).
-/
import MergeGate.Matrix.Placeholder
import MergeGate.Proofs.Condition.Layout

namespace MergeGate.Matrix

open Condition (Blank dropStart?_eq_some exists_blank_append isBlank_of_isNameRest)
open Text (isBlank dropBlanks)

/-! ## How a placeholder is written -/

/-- A letter or underscore, and behind it letters, digits, underscores and dashes. -/
def IsAxis (axis : List Char) : Prop :=
  ∃ c rest, axis = c :: rest ∧ isAxisStart c = true ∧ ∀ d ∈ rest, isAxisRest d = true

/-- The text is a placeholder for the axis. -/
def Spells (axis written : List Char) : Prop :=
  IsAxis axis ∧ ∃ before after, Blank before ∧ Blank after ∧
    written = ['$', '\x7b', '\x7b'] ++ (before ++ (['m', 'a', 't', 'r', 'i', 'x', '.'] ++
      (axis ++ (after ++ ['\x7d', '\x7d']))))

theorem isAxisRest_of_isAxisStart {c : Char} (h : isAxisStart c = true) : isAxisRest c = true := by
  simp only [isAxisStart, isAxisRest, Char.isAlphanum, Bool.or_eq_true] at h ⊢
  tauto

theorem isBlank_of_isAxisRest {c : Char} (h : isAxisRest c = true) : isBlank c = false := by
  apply isBlank_of_isNameRest
  simp only [isAxisRest, Condition.isNameRest, Bool.or_eq_true] at h ⊢
  tauto

theorem IsAxis.rest {axis : List Char} (h : IsAxis axis) : ∀ d ∈ axis, isAxisRest d = true := by
  obtain ⟨c, rest, rfl, hc, hrest⟩ := h
  exact List.forall_mem_cons.2 ⟨isAxisRest_of_isAxisStart hc, hrest⟩

/-- Blanks are dropped up to the first character that is none. -/
theorem dropBlanks_gap {gap : List Char} (hgap : Blank gap) {c : Char} (hc : isBlank c = false)
    (cs : List Char) : dropBlanks (gap ++ c :: cs) = c :: cs := by
  rw [hgap.dropBlanks_append, dropBlanks, List.dropWhile_cons_of_neg (by simp [hc])]

/-- A name ends where blanks or the closing braces begin. -/
theorem span_name {word gap : List Char} (hword : ∀ d ∈ word, isAxisRest d = true) (hgap : Blank gap)
    (cs : List Char) :
    (word ++ (gap ++ '\x7d' :: cs)).takeWhile isAxisRest = word ∧
      (word ++ (gap ++ '\x7d' :: cs)).dropWhile isAxisRest = gap ++ '\x7d' :: cs := by
  obtain ⟨d, ds, hd, hstop⟩ : ∃ d ds, gap ++ '\x7d' :: cs = d :: ds ∧ ¬ isAxisRest d = true := by
    cases gap with
    | nil => exact ⟨_, _, rfl, by decide⟩
    | cons d gap =>
      refine ⟨d, _, rfl, fun hd => ?_⟩
      have hblank : isBlank d = true := hgap d (by simp)
      simp [isBlank_of_isAxisRest hd] at hblank
  rw [hd, List.takeWhile_append_of_pos hword, List.dropWhile_append_of_pos hword,
    List.takeWhile_cons_of_neg hstop, List.dropWhile_cons_of_neg hstop, List.append_nil]
  exact ⟨rfl, rfl⟩

/-- What is read at the start of a text is a placeholder that stands there, and the other way round. -/
theorem readPlaceholder?_eq_some {cs axis after : List Char} :
    readPlaceholder? cs = some (axis, after) ↔ ∃ w, Spells axis w ∧ cs = w ++ after := by
  simp only [readPlaceholder?, bind, Option.bind_eq_some_iff, dropStart?_eq_some]
  constructor
  · rintro ⟨inside, rfl, named, hnamed, h⟩
    obtain ⟨before, hbefore, hinside⟩ := exists_blank_append inside
    split at h
    · simp at h
    · next c rest =>
      split at h
      · next hc =>
        simp only [Option.bind_eq_some_iff, dropStart?_eq_some, pure, Option.some.injEq, Prod.mk.injEq] at h
        obtain ⟨tail, htail, rfl, rfl⟩ := h
        obtain ⟨gap, hgap, hrest⟩ := exists_blank_append (rest.dropWhile isAxisRest)
        have hword : ∀ d ∈ rest.takeWhile isAxisRest, isAxisRest d = true :=
          fun d hd => List.mem_takeWhile_imp hd
        have hsplit := List.takeWhile_append_dropWhile (p := isAxisRest) (l := rest)
        rw [hrest, htail] at hsplit
        refine ⟨_, ⟨⟨c, _, rfl, hc, hword⟩, before, gap, hbefore, hgap, rfl⟩, ?_⟩
        rw [hinside, hnamed]
        generalize rest.takeWhile isAxisRest = word at hsplit
        simp [← hsplit]
      · simp at h
  · rintro ⟨_, ⟨⟨c, word, rfl, hc, hword⟩, before, gap, hbefore, hgap, rfl⟩, rfl⟩
    refine ⟨before ++ (['m', 'a', 't', 'r', 'i', 'x', '.'] ++ (c :: word ++ (gap ++ ['\x7d', '\x7d']))) ++ after,
      by simp, c :: (word ++ (gap ++ '\x7d' :: '\x7d' :: after)), ?_, ?_⟩
    · simpa using dropBlanks_gap hbefore (c := 'm') (by decide) _
    · obtain ⟨htake, hdrop⟩ := span_name hword hgap ('\x7d' :: after)
      simp only [hc, if_true, htake, hdrop, Option.bind_eq_some_iff, dropStart?_eq_some]
      exact ⟨after, dropBlanks_gap hgap (by decide) _, rfl⟩

theorem Spells.read {axis w : List Char} (h : Spells axis w) (cs : List Char) :
    readPlaceholder? (w ++ cs) = some (axis, cs) :=
  readPlaceholder?_eq_some.2 ⟨w, h, rfl⟩

theorem Spells.eq {axis axis' w w' cs cs' : List Char} (h : Spells axis w) (h' : Spells axis' w')
    (heq : w ++ cs = w' ++ cs') : axis = axis' ∧ w = w' := by
  have hread := h.read cs
  rw [heq, h'.read cs', Option.some.injEq, Prod.mk.injEq] at hread
  obtain ⟨rfl, rfl⟩ := hread
  exact ⟨rfl, List.append_cancel_right heq⟩

/-- A placeholder begins with its only dollar sign. -/
theorem Spells.dollar {axis w : List Char} (h : Spells axis w) : ∃ tail, w = '$' :: tail ∧ '$' ∉ tail := by
  obtain ⟨haxis, before, after, hbefore, hafter, rfl⟩ := h
  refine ⟨_, rfl, ?_⟩
  have hgap : ∀ {gap : List Char}, Blank gap → '$' ∉ gap := fun hb hmem => absurd (hb _ hmem) (by decide)
  have hname : '$' ∉ axis := fun hmem => absurd (haxis.rest _ hmem) (by decide)
  simp [hgap hbefore, hgap hafter, hname]

/-! ## Where placeholders stand -/

/-- A placeholder for the axis stands in the text behind its first `i` characters. -/
def Occurs (text : List Char) (i : Nat) (written : List Char) (axis : String) : Prop :=
  Spells axis.toList written ∧ written <+: text.drop i

theorem Occurs.dollar {text w : List Char} {i : Nat} {axis : String} (h : Occurs text i w axis) :
    text[i]? = some '$' := by
  obtain ⟨tail, rfl, -⟩ := h.1.dollar
  obtain ⟨rest, hrest⟩ := h.2
  rw [← List.head?_drop, ← hrest]
  rfl

/-- Inside a placeholder no other one begins. -/
theorem Occurs.le_of_lt {text w v : List Char} {i k : Nat} {a b : String} (h : Occurs text i w a)
    (h' : Occurs text k v b) (hik : i < k) : i + w.length ≤ k := by
  by_contra hlt
  obtain ⟨tail, rfl, htail⟩ := h.1.dollar
  obtain ⟨rest, hrest⟩ := h.2
  have hk : text[k]? = (('$' :: tail) ++ rest)[k - i]? := by
    rw [hrest, List.getElem?_drop, Nat.add_sub_cancel' hik.le]
  rw [h'.dollar, List.cons_append, List.getElem?_cons, if_neg (by omega),
    List.getElem?_append_left (by simp at hlt; omega)] at hk
  exact htail (List.mem_of_getElem? hk.symm)

/-- Two placeholders of a text are the same, or one ends before the other begins. -/
theorem Occurs.apart {text w v : List Char} {i k : Nat} {a b : String} (h : Occurs text i w a)
    (h' : Occurs text k v b) :
    (i = k ∧ w = v ∧ a = b) ∨ i + w.length ≤ k ∨ k + v.length ≤ i := by
  rcases Nat.lt_trichotomy i k with hik | rfl | hki
  · exact .inr (.inl (h.le_of_lt h' hik))
  · obtain ⟨cs, hcs⟩ := h.2
    obtain ⟨cs', hcs'⟩ := h'.2
    obtain ⟨haxis, hw⟩ := h.1.eq h'.1 (hcs.trans hcs'.symm)
    exact .inl ⟨rfl, hw, String.toList_inj.1 haxis⟩
  · exact .inr (.inr (h'.le_of_lt h hki))

theorem not_occurs_nil {i : Nat} {w : List Char} {a : String} : ¬ Occurs [] i w a := fun h => by
  simpa using h.dollar

/-- What stands in the text behind a beginning stands there in the whole text, further on. -/
theorem occurs_append (start : List Char) {text w : List Char} {i : Nat} {a : String} :
    Occurs (start ++ text) (start.length + i) w a ↔ Occurs text i w a := by
  rw [Occurs, Occurs, List.drop_length_add_append]

theorem Occurs.of_append {start text w : List Char} {i : Nat} {a : String}
    (h : Occurs (start ++ text) i w a) (hi : start.length ≤ i) : Occurs text (i - start.length) w a := by
  rw [← occurs_append start, Nat.add_sub_cancel' hi]
  exact h

/-- A placeholder of a text is one of every longer text that begins with it. -/
theorem Occurs.append {text w : List Char} {i : Nat} {a : String} (h : Occurs text i w a)
    (more : List Char) : Occurs (text ++ more) i w a := by
  refine ⟨h.1, h.2.trans ?_⟩
  rw [List.drop_append]
  exact List.prefix_append _ _

theorem Spells.occurs {axis : String} {w : List Char} (h : Spells axis.toList w) (cs : List Char) :
    Occurs (w ++ cs) 0 w axis := ⟨h, List.prefix_append w cs⟩

/-! ## Pieces -/

theorem segments_nil : segments [] = [] := by rw [segments]

theorem segments_placeholder {axis : String} {w : List Char} (h : Spells axis.toList w) (cs : List Char) :
    segments (w ++ cs) = .axis axis :: segments cs := by
  obtain ⟨tail, rfl, -⟩ := h.dollar
  have hread := h.read cs
  rw [List.cons_append] at hread ⊢
  rw [segments]
  split
  · next axis' after hread' =>
    rw [hread] at hread'
    obtain ⟨rfl, rfl⟩ : axis.toList = axis' ∧ cs = after := by simpa using hread'
    rw [String.ofList_toList]
  · next hnone => simp [hread] at hnone

theorem segments_plain {c : Char} {cs : List Char} (h : ∀ w a, ¬ Occurs (c :: cs) 0 w a) :
    segments (c :: cs) = .plain c :: segments cs := by
  rw [segments]
  split
  · next axis after hread =>
    obtain ⟨w, hw, hcs⟩ := readPlaceholder?_eq_some.1 hread
    refine absurd ⟨?_, ?_⟩ (h w (String.ofList axis))
    · simpa using hw
    · exact ⟨after, by simpa using hcs.symm⟩
  · rfl

/-- Texts from their ends: a text is empty, or begins with a placeholder, or with a character at which
none begins. -/
theorem text_induction {P : List Char → Prop} (nil : P [])
    (plain : ∀ c cs, (∀ w a, ¬ Occurs (c :: cs) 0 w a) → P cs → P (c :: cs))
    (placeholder : ∀ (axis : String) w cs, Spells axis.toList w → P cs → P (w ++ cs)) :
    ∀ cs, P cs
  | [] => nil
  | c :: cs => by
    by_cases h : ∃ w a, Occurs (c :: cs) 0 w a
    · obtain ⟨w, a, hw, after, hafter⟩ := h
      have hshort : after.length < (c :: cs).length := by
        obtain ⟨tail, rfl, -⟩ := hw.dollar
        have := congrArg List.length hafter
        simp at this
        simp
        omega
      rw [List.drop_zero] at hafter
      rw [← hafter]
      exact placeholder a w after hw (text_induction nil plain placeholder after)
    · simp only [not_exists] at h
      exact plain c cs h (text_induction nil plain placeholder cs)
termination_by cs => cs.length
decreasing_by
  · exact hshort
  · exact Nat.lt_succ_self _

/-! ## A text cut at its placeholders -/

/-- A placeholder as it is written, its axis, and the text behind it up to the next one. -/
structure Hole where
  written : List Char
  axis : String
  after : List Char

/-- What stands before the first placeholder of a text, and the placeholders in their order. -/
structure Cut where
  start : List Char
  holes : List Hole

namespace Cut

/-- The pieces one after the other, with a text of its own in the place of each placeholder. -/
def filled (k : Cut) (fill : Hole → List Char) : List Char :=
  k.start ++ k.holes.flatMap fun h => fill h ++ h.after

/-- The text that was cut. -/
def text (k : Cut) : List Char := k.filled Hole.written

/-- The text is cut at each of its placeholders and nowhere else. -/
structure Cuts (k : Cut) (cs : List Char) : Prop where
  whole : k.text = cs
  holes : ∀ i w a, Occurs cs i w a ↔ ∃ hs after hs', k.holes = hs ++ ⟨w, a, after⟩ :: hs' ∧
    (Cut.mk k.start hs).text.length = i

/-- The pieces that are read from the text. -/
def segments (k : Cut) : List Segment :=
  k.start.map .plain ++ k.holes.flatMap fun h => .axis h.axis :: h.after.map .plain

theorem Cuts.nil : (Cut.mk [] []).Cuts [] where
  whole := rfl
  holes i w a := by simp [not_occurs_nil]

theorem Cuts.plain {k : Cut} {c : Char} {cs : List Char} (h : k.Cuts cs)
    (hnone : ∀ w a, ¬ Occurs (c :: cs) 0 w a) : (Cut.mk (c :: k.start) k.holes).Cuts (c :: cs) where
  whole := by
    rw [← h.whole]
    rfl
  holes i w a := by
    cases i with
    | zero => simp [hnone, text, filled]
    | succ i =>
      have hshift : Occurs (c :: cs) (i + 1) w a ↔ Occurs cs i w a := Iff.rfl
      simp [hshift, h.holes, text, filled]

theorem Cuts.placeholder {k : Cut} {axis : String} {w cs : List Char} (h : k.Cuts cs)
    (hw : Spells axis.toList w) : (Cut.mk [] (⟨w, axis, k.start⟩ :: k.holes)).Cuts (w ++ cs) where
  whole := by
    rw [← h.whole]
    simp [text, filled]
  holes i v b := by
    constructor
    · intro hv
      rcases (hw.occurs cs).apart hv with ⟨rfl, rfl, rfl⟩ | hbehind | hbefore
      · exact ⟨[], k.start, k.holes, rfl, rfl⟩
      · rw [Nat.zero_add] at hbehind
        obtain ⟨hs, after, hs', hholes, hlength⟩ := (h.holes _ _ _).1 (hv.of_append hbehind)
        refine ⟨⟨w, axis, k.start⟩ :: hs, after, hs', by simp [hholes], ?_⟩
        simp [text, filled] at hlength ⊢
        omega
      · obtain ⟨tail, rfl, -⟩ := hv.1.dollar
        simp at hbefore
    · rintro ⟨hs, after, hs', hholes, rfl⟩
      cases hs with
      | nil =>
        obtain ⟨⟨rfl, rfl, rfl⟩, rfl⟩ : (w = v ∧ axis = b ∧ k.start = after) ∧ k.holes = hs' := by
          simpa using hholes
        exact hw.occurs cs
      | cons x hs =>
        obtain ⟨rfl, hrest⟩ := List.cons.inj hholes
        have hv := (h.holes _ _ _).2 ⟨hs, after, hs', hrest, rfl⟩
        rw [← occurs_append w] at hv
        simpa [text, filled, Nat.add_assoc] using hv

end Cut

/-- Every text is cut at its placeholders into the pieces that are read from it. -/
theorem exists_cut (cs : List Char) : ∃ k : Cut, k.Cuts cs ∧ segments cs = k.segments := by
  induction cs using text_induction with
  | nil => exact ⟨_, .nil, segments_nil⟩
  | plain c cs hnone ih =>
    obtain ⟨k, hk, hsegments⟩ := ih
    exact ⟨_, hk.plain hnone, by rw [segments_plain hnone, hsegments]; rfl⟩
  | placeholder axis w cs hw ih =>
    obtain ⟨k, hk, hsegments⟩ := ih
    exact ⟨_, hk.placeholder hw, by rw [segments_placeholder hw, hsegments]; rfl⟩

/-- The axes that are read are those for which a placeholder stands in the text. -/
theorem axis_mem_segments_iff {cs : List Char} {a : String} :
    .axis a ∈ segments cs ↔ ∃ i w, Occurs cs i w a := by
  obtain ⟨k, hk, hsegments⟩ := exists_cut cs
  have hmem : .axis a ∈ segments cs ↔ ∃ h ∈ k.holes, h.axis = a := by
    simp [hsegments, Cut.segments, eq_comm]
  rw [hmem]
  constructor
  · rintro ⟨⟨w, _, after⟩, hh, rfl⟩
    obtain ⟨hs, hs', hholes⟩ := List.append_of_mem hh
    exact ⟨_, w, (hk.holes _ _ _).2 ⟨hs, after, hs', hholes, rfl⟩⟩
  · rintro ⟨i, w, h⟩
    obtain ⟨hs, after, hs', hholes, -⟩ := (hk.holes _ _ _).1 h
    exact ⟨⟨w, a, after⟩, by simp [hholes], rfl⟩

/-! ## Rendering -/

theorem renderAll_append (values : String → Option Value) (xs ys : List Segment) :
    renderAll values (xs ++ ys) = (do
      let head ← renderAll values xs
      let tail ← renderAll values ys
      return head ++ tail) := by
  induction xs with
  | nil =>
    rw [List.nil_append]
    cases renderAll values ys <;> rfl
  | cons x xs ih =>
    rw [List.cons_append, renderAll, renderAll, ih]
    cases x.render values with
    | error e => rfl
    | ok head =>
      cases renderAll values xs with
      | error e => rfl
      | ok tail => cases renderAll values ys <;> simp [bind, Except.bind, pure, Except.pure]

theorem renderAll_plain (values : String → Option Value) (cs : List Char) :
    renderAll values (cs.map .plain) = .ok cs := by
  induction cs with
  | nil => rfl
  | cons c cs ih => simp [renderAll, Segment.render, ih, bind, Except.bind, pure, Except.pure]

theorem written_eq_ok {v : Value} {t : String} : written v = .ok t ↔ v.isTooLong = false ∧ v.plain = t := by
  cases hlong : v.isTooLong <;> simp [written, hlong]

theorem textFor_eq_ok {values : String → Option Value} {axis t : String} :
    textFor values axis = .ok t ↔ ∃ v, values axis = some v ∧ v.isTooLong = false ∧ v.plain = t := by
  cases hv : values axis with
  | none => simp [textFor, hv]
  | some v => simp [textFor, hv, written_eq_ok]

theorem textFor_missing_iff {values : String → Option Value} {axis a : String} :
    textFor values axis = .error (.missing a) ↔ axis = a ∧ values axis = none := by
  cases hv : values axis with
  | none => simp [textFor, hv]
  | some v => cases hlong : v.isTooLong <;> simp [textFor, written, hv, hlong]

theorem renderAll_total {values : String → Option Value} : ∀ {segs : List Segment},
    (∀ a, .axis a ∈ segs → ∃ t, textFor values a = .ok t) → ∃ cs, renderAll values segs = .ok cs
  | [], _ => ⟨[], rfl⟩
  | x :: segs, h => by
    obtain ⟨tail, htail⟩ := renderAll_total fun a ha => h a (.tail _ ha)
    obtain ⟨head, hhead⟩ : ∃ head, x.render values = .ok head := by
      cases x with
      | plain c => exact ⟨[c], rfl⟩
      | axis a =>
        obtain ⟨t, ht⟩ := h a (.head _)
        exact ⟨t.toList, by rw [Segment.render, ht]; rfl⟩
    exact ⟨head ++ tail, by simp [renderAll, hhead, htail, bind, Except.bind, pure, Except.pure]⟩

namespace Cut

/-- The pieces of the placeholders and of what stands behind each. -/
def behind (holes : List Hole) : List Segment := holes.flatMap fun x => .axis x.axis :: x.after.map .plain

theorem renderAll_segments (k : Cut) (values : String → Option Value) :
    renderAll values k.segments = (renderAll values (behind k.holes)).map (k.start ++ ·) := by
  rw [segments, renderAll_append, renderAll_plain]
  rfl

theorem renderAll_behind (values : String → Option Value) (x : Hole) (holes : List Hole) :
    renderAll values (behind (x :: holes)) = (textFor values x.axis).bind fun t =>
      (renderAll values (behind holes)).map (t.toList ++ x.after ++ ·) := by
  rw [behind, List.flatMap_cons, ← behind, List.cons_append, renderAll, renderAll_append, renderAll_plain,
    Segment.render]
  cases textFor values x.axis with
  | error e => rfl
  | ok t =>
    cases renderAll values (behind holes) <;> simp [Except.map, bind, Except.bind, pure, Except.pure]

/-- When each placeholder has a text, it stands in its place. -/
theorem renderAll_behind_of_texts {values : String → Option Value} (fill : String → String) :
    ∀ {holes : List Hole}, (∀ x ∈ holes, textFor values x.axis = .ok (fill x.axis)) →
      renderAll values (behind holes) = .ok (holes.flatMap fun x => (fill x.axis).toList ++ x.after)
  | [], _ => rfl
  | x :: holes, h => by
    obtain ⟨hx, hrest⟩ := List.forall_mem_cons.1 h
    rw [renderAll_behind, hx, renderAll_behind_of_texts fill hrest]
    rfl

/-- The first placeholder without a text is why rendering fails. -/
theorem renderAll_behind_eq_error {values : String → Option Value} {e : Unrendered} : ∀ {holes : List Hole},
    renderAll values (behind holes) = .error e ↔ ∃ hs x hs', holes = hs ++ x :: hs' ∧
      (∀ y ∈ hs, ∃ t, textFor values y.axis = .ok t) ∧ textFor values x.axis = .error e
  | [] => by simp [behind, renderAll]
  | x :: holes => by
    simp only [List.cons_eq_append_iff]
    cases hx : textFor values x.axis with
    | error e' =>
      rw [renderAll_behind, hx]
      constructor
      · intro h
        cases h
        exact ⟨[], x, holes, .inl ⟨rfl, rfl⟩, nofun, hx⟩
      · rintro ⟨hs, y, hs', ⟨rfl, h⟩ | ⟨hs, rfl, -⟩, hbefore, hy⟩
        · obtain ⟨rfl, -⟩ := List.cons.inj h
          exact congrArg (Except.bind · _) (hx.symm.trans hy)
        · obtain ⟨t, ht⟩ := hbefore x (.head _)
          cases hx.symm.trans ht
    | ok t =>
      have hrest : renderAll values (behind (x :: holes)) = .error e ↔
          renderAll values (behind holes) = .error e := by
        rw [renderAll_behind, hx]
        cases renderAll values (behind holes) <;> simp [Except.bind, Except.map]
      refine hrest.trans (renderAll_behind_eq_error.trans ?_)
      constructor
      · rintro ⟨hs, y, hs', rfl, hbefore, hy⟩
        exact ⟨x :: hs, y, hs', .inr ⟨hs, rfl, rfl⟩, List.forall_mem_cons.2 ⟨⟨t, hx⟩, hbefore⟩, hy⟩
      · rintro ⟨hs, y, hs', ⟨rfl, h⟩ | ⟨hs, rfl, rfl⟩, hbefore, hy⟩
        · obtain ⟨rfl, -⟩ := List.cons.inj h
          cases hx.symm.trans hy
        · exact ⟨hs, y, hs', rfl, (List.forall_mem_cons.1 hbefore).2, hy⟩

theorem length_text_append (start : List Char) (hs hs' : List Hole) : (Cut.mk start (hs ++ hs')).text.length =
    (Cut.mk start hs).text.length + (hs'.flatMap fun x => x.written ++ x.after).length := by
  simp [text, filled, Nat.add_assoc]

variable {k : Cut} {cs : List Char}

/-- The first placeholder with a property is the first that occurs with it. -/
theorem Cuts.first_iff (h : k.Cuts cs) {p q : String → Prop} :
    (∃ hs x hs', k.holes = hs ++ x :: hs' ∧ (∀ y ∈ hs, q y.axis) ∧ p x.axis) ↔
      ∃ i w a, Occurs cs i w a ∧ p a ∧ ∀ j v b, Occurs cs j v b → j < i → q b := by
  constructor
  · rintro ⟨hs, ⟨w, a, after⟩, hs', hholes, hbefore, hp⟩
    refine ⟨_, w, a, (h.holes _ _ _).2 ⟨hs, after, hs', hholes, rfl⟩, hp, fun j v b hv hj => ?_⟩
    obtain ⟨hs₁, after₁, hs₁', hholes₁, rfl⟩ := (h.holes _ _ _).1 hv
    rcases List.append_eq_append_iff.1 (hholes₁.symm.trans hholes) with ⟨as, rfl, has⟩ | ⟨bs, rfl, -⟩
    · cases as with
      | nil => simp at hj
      | cons y as =>
        obtain ⟨rfl, -⟩ := List.cons.inj has
        exact hbefore _ (List.mem_append_right _ (.head _))
    · rw [length_text_append] at hj
      omega
  · rintro ⟨i, w, a, hw, hp, hbefore⟩
    obtain ⟨hs, after, hs', hholes, rfl⟩ := (h.holes _ _ _).1 hw
    refine ⟨hs, _, hs', hholes, fun y hy => ?_, hp⟩
    obtain ⟨hs₁, hs₂, rfl⟩ := List.append_of_mem hy
    have hy' := (h.holes _ y.written y.axis).2 ⟨hs₁, y.after, hs₂ ++ ⟨w, a, after⟩ :: hs', by simp [hholes], rfl⟩
    refine hbefore _ _ _ hy' ?_
    obtain ⟨tail, hwritten, -⟩ := hy'.1.dollar
    rw [length_text_append]
    simp [hwritten]

end Cut

/-! ## Texts put together -/

/-- No placeholder begins in the first text and ends in the second. -/
def Parted (s t : List Char) : Prop :=
  ∀ i w a, Occurs (s ++ t) i w a → i + w.length ≤ s.length ∨ s.length ≤ i

theorem Parted.of_append (start : List Char) {s t : List Char} (h : Parted (start ++ s) t) :
    Parted s t := by
  intro i w a hw
  rw [← occurs_append start, ← List.append_assoc] at hw
  have := h _ _ _ hw
  rw [List.length_append] at this
  omega

theorem segments_append {s t : List Char} (h : Parted s t) :
    segments (s ++ t) = segments s ++ segments t := by
  induction s using text_induction with
  | nil => rw [segments_nil, List.nil_append, List.nil_append]
  | plain c s hnone ih =>
    have hnone' : ∀ w a, ¬ Occurs (c :: (s ++ t)) 0 w a := by
      intro w a hw
      rcases h 0 w a hw with hlength | hlength
      · rw [Nat.zero_add] at hlength
        exact hnone w a ⟨hw.1, List.prefix_of_prefix_length_le hw.2 (List.prefix_append (c :: s) t) hlength⟩
      · simp at hlength
    have hrest : Parted s t := Parted.of_append [c] h
    rw [List.cons_append, segments_plain hnone', segments_plain hnone, ih hrest, List.cons_append]
  | placeholder axis w s hw ih =>
    rw [List.append_assoc, segments_placeholder hw, segments_placeholder hw, ih (h.of_append w),
      List.cons_append]

theorem render_append {values : String → Option Value} {s t : String} (h : Parted s.toList t.toList) :
    render values (s ++ t) = (do
      let head ← render values s
      let tail ← render values t
      return head ++ tail) := by
  rw [render, render, render, String.toList_append, segments_append h, renderAll_append]
  cases renderAll values (segments s.toList) with
  | error e => rfl
  | ok head =>
    cases renderAll values (segments t.toList) with
    | error e => rfl
    | ok tail => simp [Except.map, bind, Except.bind, pure, Except.pure]

/-- **Rendering replaces the placeholders and nothing else.** No two placeholders of a text overlap. The
text is cut at its placeholders; when the axes they name have values that can be written, the rendered
text has the text of the value in the place of each of them, as it is, and all other pieces unchanged.
Otherwise rendering fails as the first placeholder does that has no text; so it misses an axis exactly when
some placeholder names one that has no value, and none before it has a value that cannot be written. Two
texts are rendered one by one when no placeholder lies across their border. -/
theorem render_fills (s : String) :
    (∀ i w a k v b, Occurs s.toList i w a → Occurs s.toList k v b →
      (i = k ∧ w = v ∧ a = b) ∨ i + w.length ≤ k ∨ k + v.length ≤ i) ∧
    (∃ k : Cut, k.Cuts s.toList ∧ ∀ (values : String → Option Value) (value : String → Value),
      (∀ i w a, Occurs s.toList i w a → values a = some (value a) ∧ (value a).isTooLong = false) →
        render values s = .ok (String.ofList (k.filled fun x => (value x.axis).plain.toList))) ∧
    (∀ (values : String → Option Value) e, render values s = .error e ↔
      ∃ i w a, Occurs s.toList i w a ∧ textFor values a = .error e ∧
        ∀ j v b, Occurs s.toList j v b → j < i → ∃ t, textFor values b = .ok t) ∧
    (∀ values : String → Option Value, (∃ a, render values s = .error (.missing a)) ↔
      ∃ i w a, Occurs s.toList i w a ∧ values a = none ∧
        ∀ j v b, Occurs s.toList j v b → j < i → ∃ x, values b = some x ∧ x.isTooLong = false) ∧
    ∀ (values : String → Option Value) (t : String), Parted s.toList t.toList →
      render values (s ++ t) = (do
        let head ← render values s
        let tail ← render values t
        return head ++ tail) := by
  obtain ⟨k, hk, hsegments⟩ := exists_cut s.toList
  have hfails (values : String → Option Value) (e : Unrendered) : render values s = .error e ↔
      ∃ i w a, Occurs s.toList i w a ∧ textFor values a = .error e ∧
        ∀ j v b, Occurs s.toList j v b → j < i → ∃ t, textFor values b = .ok t := by
    rw [← hk.first_iff, ← Cut.renderAll_behind_eq_error, render, hsegments, Cut.renderAll_segments]
    cases renderAll values (Cut.behind k.holes) <;> simp [Except.map]
  refine ⟨fun i w a k v b h h' => h.apart h', ⟨k, hk, fun values value hvalues => ?_⟩, hfails,
    fun values => ?_, fun values t h => render_append h⟩
  · have htexts : ∀ x ∈ k.holes, textFor values x.axis = .ok (value x.axis).plain := by
      intro x hx
      obtain ⟨hs, hs', hholes⟩ := List.append_of_mem hx
      obtain ⟨hv, hshort⟩ := hvalues _ x.written _ ((hk.holes _ _ _).2 ⟨hs, x.after, hs', hholes, rfl⟩)
      exact textFor_eq_ok.2 ⟨_, hv, hshort, rfl⟩
    rw [render, hsegments, Cut.renderAll_segments,
      Cut.renderAll_behind_of_texts (fun a => (value a).plain) htexts]
    rfl
  · simp only [hfails, textFor_missing_iff, textFor_eq_ok]
    constructor
    · rintro ⟨_, i, w, a, hw, ⟨-, hnone⟩, hbefore⟩
      exact ⟨i, w, a, hw, hnone, fun j v b hv hj =>
        let ⟨_, x, hx, hshort, _⟩ := hbefore j v b hv hj
        ⟨x, hx, hshort⟩⟩
    · rintro ⟨i, w, a, hw, hnone, hbefore⟩
      exact ⟨a, i, w, a, hw, ⟨rfl, hnone⟩, fun j v b hv hj =>
        let ⟨x, hx, hshort⟩ := hbefore j v b hv hj
        ⟨_, x, hx, hshort, rfl⟩⟩

/-- A value that reads like a placeholder stands in the rendered text as it is. -/
theorem render_fills_echo :
    let s := "echo $\x7b\x7b matrix.os \x7d\x7d"
    let values : String → Option Value := fun _ => some (.text "$\x7b\x7bmatrix.os\x7d\x7d")
    (∃ k : Cut, k.Cuts s.toList ∧
      render values s = .ok (String.ofList (k.filled fun _ => "$\x7b\x7bmatrix.os\x7d\x7d".toList))) ∧
    (Parted s.toList " $".toList ∧ render values (s ++ " $") = (do
      let head ← render values s
      let tail ← render values " $"
      return head ++ tail)) ∧
    ∃ a, render (fun _ => none) s = .error (.missing a) := by
  intro s values
  obtain ⟨-, ⟨k, hk, hfill⟩, -, hfails, happend⟩ := render_fills s
  have hos : Occurs s.toList 5 "$\x7b\x7b matrix.os \x7d\x7d".toList "os" := by
    refine ⟨⟨⟨'o', ['s'], by decide, by decide, ?_⟩, [' '], [' '], ?_, ?_, by decide⟩, [], by decide⟩
    all_goals exact List.forall_mem_singleton.2 (by decide)
  have hfirst : ∀ j v b, Occurs s.toList j v b → j < 5 →
      ∃ x, (fun _ => none : String → Option Value) b = some x ∧ x.isTooLong = false := by
    intro j v b h hj
    have hnone : ∀ j < 5, s.toList[j]? ≠ some '$' := by decide
    exact absurd h.dollar (hnone j hj)
  have hparted : Parted s.toList " $".toList := by
    intro i w a h
    have hend : s.toList.length = 21 := by decide
    have hall : (s.toList ++ " $".toList).length = 23 := by decide
    have hdollar : ∀ i < 23, (s.toList ++ " $".toList)[i]? = some '$' → i = 5 ∨ 21 ≤ i := by decide
    have hi := (List.getElem?_eq_some_iff.1 h.dollar).1
    rw [hall] at hi
    rw [hend]
    rcases hdollar i hi h.dollar with rfl | hi
    · rcases (hos.append " $".toList).apart h with ⟨-, rfl, -⟩ | hbehind | hbefore
      · exact .inl (by decide)
      · simp at hbehind
      · exact .inl (by omega)
    · exact .inr hi
  exact ⟨⟨k, hk, hfill values (fun _ => .text "$\x7b\x7bmatrix.os\x7d\x7d") fun _ _ _ _ => ⟨rfl, rfl⟩⟩,
    ⟨hparted, happend values " $" hparted⟩, (hfails _).2 ⟨5, _, "os", hos, rfl, hfirst⟩⟩

/-- A value that cannot be written: an integer with one digit too many. -/
def unwritable : Value := .int (Nat.pow 10 Decimal.maxDigits)

/-- A text whose placeholders all have values is not rendered if one of them cannot be written; and then
it does not matter that another one, further on, has no value at all. -/
theorem unwritable_not_rendered :
    let s := "$\x7b\x7bmatrix.os\x7d\x7d$\x7b\x7bmatrix.arch\x7d\x7d"
    render (fun _ => some unwritable) s = .error .tooLong ∧
    (∃ i w, Occurs s.toList i w "arch") ∧
    ¬ ∃ a, render (fun b => if b = "os" then some unwritable else none) s = .error (.missing a) := by
  intro s
  have hsegments : segments s.toList = [.axis "os", .axis "arch"] := by decide +kernel
  have hlong : unwritable.isTooLong = true := by decide +kernel
  have hrender (values : String → Option Value) (hos : values "os" = some unwritable) :
      render values s = .error .tooLong := by
    rw [render, hsegments, renderAll, Segment.render, textFor, hos]
    simp [written, hlong, bind, Except.bind, Except.map]
  refine ⟨hrender _ rfl, axis_mem_segments_iff.1 (by simp [hsegments]), ?_⟩
  rintro ⟨a, ha⟩
  cases (hrender (fun b => if b = "os" then some unwritable else none) (if_pos rfl)).symm.trans ha

end MergeGate.Matrix
