/-
What conditions mean, apart from how they are evaluated. `Holds` says of a tree that it is true of a
trigger: conjunction, disjunction and negation of its leaf tests. A checked tree evaluates to just that
(`evaluate_holds`), and the test that `startsWith` is read as asks for a beginning, character for
character (`startsWith_iff_prefix`).
-/
import MergeGate.Proofs.Condition.Evaluation
import MergeGate.Proofs.Condition.Parser
import MergeGate.Proofs.Glob

namespace MergeGate

theorem Field.ofName?_eq_some {name : String} {f : Field} : ofName? name = some f ↔ name = f.name := by
  constructor
  · intro h
    have hname := List.find?_some h
    exact (beq_iff_eq.1 hname).symm
  · rintro rfl
    exact ofName?_name f

theorem Field.name_injective : Function.Injective name := by
  intro f g h
  have hg : ofName? f.name = some g := ofName?_eq_some.2 h
  rw [ofName?_name] at hg
  exact Option.some.inj hg

namespace Condition

/-! ## Trees -/

/-- Induction over trees, the terms of a conjunction or disjunction all at once. -/
@[elab_as_elim]
theorem tree_induction {P : Condition → Prop} (always : ∀ v, P (.always v))
    (compare : ∀ field op operand, P (.compare field op operand))
    (glob : ∀ field pattern, P (.glob field pattern))
    (all : ∀ terms : List Condition, (∀ c ∈ terms, P c) → P (.all terms))
    (any : ∀ terms : List Condition, (∀ c ∈ terms, P c) → P (.any terms))
    (not : ∀ c, P c → P (.not c)) (given : ∀ v, P (.given v)) : ∀ c, P c
  | .always v => always v
  | .compare field op operand => compare field op operand
  | .glob field pattern => glob field pattern
  | .all terms => all terms fun c _ => tree_induction always compare glob all any not given c
  | .any terms => any terms fun c _ => tree_induction always compare glob all any not given c
  | .not c => not c (tree_induction always compare glob all any not given c)
  | .given v => given v

/-- The first tree is the second one or a part of it, however deep. -/
inductive Within (d : Condition) : Condition → Prop
  | self : Within d d
  | all {c : Condition} {terms : List Condition} : c ∈ terms → Within d c → Within d (.all terms)
  | any {c : Condition} {terms : List Condition} : c ∈ terms → Within d c → Within d (.any terms)
  | not {c : Condition} : Within d c → Within d (.not c)

/-- Truth values are what they are declared to be: booleans. -/
def Declared (c : Condition) : Prop := ∀ v, Within (.always v) c → ∃ b, v = .bool b

/-- The tree is true of the trigger. -/
def Holds (t : Trigger) : Condition → Prop
  | .always v => v = .bool true
  | .compare field op operand => ∃ (f : Field) (s : String), field = .text f.name ∧ operand = .text s ∧
      (op = "==" ∧ f.read t = s ∨ op = "!=" ∧ f.read t ≠ s)
  | .glob field pattern => ∃ (f : Field) (p : String), field = .text f.name ∧ pattern = .text p ∧
      (Glob.parse p.toList).holds (f.read t).toList = true
  | .all terms => ∀ c, ∀ _ : c ∈ terms, Holds t c
  | .any terms => ∃ c, ∃ _ : c ∈ terms, Holds t c
  | .not c => ¬ Holds t c
  | .given _ => False

/-! ## What the check lets through -/

theorem isField_iff {v : Value} : isField v = true ↔ ∃ f : Field, v = .text f.name := by
  cases v with
  | text name => simp [isField, Option.isSome_iff_exists, Field.ofName?_eq_some]
  | _ => simp [isField]

/-- A leaf passes with a known field, a known operator, if it has one, and a text to compare with. -/
theorem checkLeaf_eq_ok {field operand : Value} {op : Option String} :
    checkLeaf field operand op = .ok () ↔
      (∃ f : Field, field = .text f.name) ∧ (∀ o ∈ op, o = "==" ∨ o = "!=") ∧
        ∃ s, operand = .text s := by
  have hop : (op.filter fun o => !operators.contains o) = none ↔ ∀ o ∈ op, o = "==" ∨ o = "!=" := by
    simp [Option.filter_eq_none_iff, operators, Decidable.or_iff_not_imp_left]
  rw [← isField_iff, ← hop]
  unfold checkLeaf
  constructor
  · intro h
    split at h
    · cases h
    · next hfield =>
      split at h
      · cases h
      · next hnone =>
        split at h
        · exact ⟨by simpa using hfield, hnone, _, rfl⟩
        · cases h
  · rintro ⟨hfield, hnone, s, rfl⟩
    simp only [hfield, hnone, Bool.not_true, Bool.false_eq_true, if_false]

theorem checkAll_eq_ok {cs : List Condition} : checkAll cs = .ok () ↔ ∀ c ∈ cs, check c = .ok () := by
  induction cs with
  | nil => simp [checkAll]
  | cons c cs ih =>
    rw [checkAll, Except.bind_eq_ok, List.forall_mem_cons, ih]
    constructor
    · rintro ⟨_, h⟩
      exact h
    · intro h
      exact ⟨(), h⟩

/-! ## Truth -/

theorem evaluateAll_eq_ok {t : Trigger} {P : Condition → Prop} {cs : List Condition}
    (h : ∀ c ∈ cs, ∃ b, evaluate t c = .ok b ∧ (b = true ↔ P c)) :
    ∃ b, evaluateAll t cs = .ok b ∧ (b = true ↔ ∀ c ∈ cs, P c) := by
  induction cs with
  | nil => exact ⟨true, rfl, by simp⟩
  | cons c cs ih =>
    obtain ⟨⟨b, hb, hP⟩, hcs⟩ := List.forall_mem_cons.1 h
    obtain ⟨r, hr, hR⟩ := ih hcs
    cases b with
    | true =>
      refine ⟨r, by simp [evaluateAll, hb, Except.bind, hr], ?_⟩
      rw [hR, List.forall_mem_cons, and_iff_right (hP.1 rfl)]
    | false =>
      -- the terms behind a false one are not looked at
      refine ⟨false, by simp [evaluateAll, hb, Except.bind], ?_⟩
      have hnot : ¬ P c := fun hc => Bool.false_ne_true (hP.2 hc)
      simp [hnot]

theorem evaluateAny_eq_ok {t : Trigger} {P : Condition → Prop} {cs : List Condition}
    (h : ∀ c ∈ cs, ∃ b, evaluate t c = .ok b ∧ (b = true ↔ P c)) :
    ∃ b, evaluateAny t cs = .ok b ∧ (b = true ↔ ∃ c ∈ cs, P c) := by
  induction cs with
  | nil => exact ⟨false, rfl, by simp⟩
  | cons c cs ih =>
    obtain ⟨⟨b, hb, hP⟩, hcs⟩ := List.forall_mem_cons.1 h
    obtain ⟨r, hr, hR⟩ := ih hcs
    cases b with
    | true =>
      -- the terms behind a true one are not looked at
      refine ⟨true, by simp [evaluateAny, hb, Except.bind], ?_⟩
      simp [hP.1 rfl]
    | false =>
      refine ⟨r, by simp [evaluateAny, hb, Except.bind, hr], ?_⟩
      have hnot : ¬ P c := fun hc => Bool.false_ne_true (hP.2 hc)
      simp [hR, hnot]

theorem readField_name (t : Trigger) (f : Field) : readField t (.text f.name) = .ok (f.read t) := by
  simp [readField]

theorem compareText_iff {op : String} (hop : op = "==" ∨ op = "!=") (actual s : String) :
    compareText actual op (.text s) = true ↔ op = "==" ∧ actual = s ∨ op = "!=" ∧ actual ≠ s := by
  rcases hop with rfl | rfl <;> simp [compareText]

/-- A checked tree has a truth value for every trigger, and it is true exactly when it holds. -/
theorem evaluate_holds (t : Trigger) {c : Condition} (hd : Declared c) (hc : check c = .ok ()) :
    ∃ b, evaluate t c = .ok b ∧ (b = true ↔ Holds t c) := by
  induction c using tree_induction with
  | always v =>
    obtain ⟨b, rfl⟩ := hd v .self
    exact ⟨b, rfl, by simp [Holds]⟩
  | compare field op operand =>
    obtain ⟨⟨f, rfl⟩, hop, s, rfl⟩ := checkLeaf_eq_ok.1 hc
    refine ⟨_, by rw [evaluate, readField_name]; rfl, ?_⟩
    rw [compareText_iff (hop op rfl), Holds]
    constructor
    · intro h
      exact ⟨f, s, rfl, rfl, h⟩
    · rintro ⟨g, s', hg, hs, h⟩
      obtain rfl : f = g := Field.name_injective (Value.text.inj hg)
      obtain rfl : s = s' := Value.text.inj hs
      exact h
  | glob field pattern =>
    obtain ⟨⟨f, rfl⟩, -, p, rfl⟩ := checkLeaf_eq_ok.1 hc
    refine ⟨_, by rw [evaluate, readField_name]; rfl, ?_⟩
    rw [Glob.matchText, Glob.fits_eq_holds, Holds]
    constructor
    · intro h
      exact ⟨f, p, rfl, rfl, h⟩
    · rintro ⟨g, p', hg, hp, h⟩
      obtain rfl : f = g := Field.name_injective (Value.text.inj hg)
      obtain rfl : p = p' := Value.text.inj hp
      exact h
  | all terms ih =>
    rw [check] at hc
    split at hc
    · cases hc
    · have hterms := checkAll_eq_ok.1 hc
      have hall := evaluateAll_eq_ok fun c hmem => ih c hmem (fun v hv => hd v (.all hmem hv)) (hterms c hmem)
      simpa only [evaluate, Holds, exists_prop] using hall
  | any terms ih =>
    rw [check] at hc
    split at hc
    · cases hc
    · have hterms := checkAll_eq_ok.1 hc
      have hany := evaluateAny_eq_ok fun c hmem => ih c hmem (fun v hv => hd v (.any hmem hv)) (hterms c hmem)
      simpa only [evaluate, Holds, exists_prop] using hany
  | not c ih =>
    obtain ⟨b, hb, hP⟩ := ih (fun v hv => hd v (.not hv)) (by simpa only [check] using hc)
    refine ⟨!b, by simp [evaluate, hb, Except.map], ?_⟩
    rw [Holds, ← hP]
    cases b <;> simp
  | given v => simp [check] at hc

/-! ## Beginnings -/

/-- The tokens that ask whether the field of that name begins with a text. -/
def startsWithCall (name arg : String) : List Token :=
  [.name "startsWith", .mark .opening, .name name, .mark .comma, .text arg, .mark .closing]

/-- The text consists of the tokens, bare or inside one `${{ }}`. -/
inductive Carries (ts : List Token) : List Char → Prop where
  | bare {cs} : Written ts cs → Carries ts cs
  | wrapped {before inner after} : Blank before → Written ts inner → Blank after →
      Carries ts (before ++ (['$', '\x7b', '\x7b'] ++ (inner ++ (['\x7d', '\x7d'] ++ after))))

theorem Carries.isLayout {ts : List Token} {c : Condition} {cs : List Char} (h : Carries ts cs)
    (hts : Disjunction ts c) : IsLayout c cs := by
  cases h with
  | bare hw => exact .bare ⟨ts, hts, hw⟩
  | wrapped hb hw ha => exact .wrapped hb ⟨ts, hts, hw⟩ ha

/-- **Beginnings.** A call of `startsWith` is read as one and the same test wherever it stands among
other tokens and however it is laid out in a text. The test is true exactly when the field begins with
the argument, character for character. -/
theorem startsWith_iff_prefix {name : String} {f : Field} (hname : (name, f) ∈ Field.aliases)
    (arg : String) : ∃ c,
      (∀ e rest, Gives (readPrimary e (startsWithCall name arg ++ rest)) c rest) ∧
      (∀ text : String, Carries (startsWithCall name arg) text.toList → parse text = .ok c) ∧
      ∀ t, evaluate t c = .ok (decide (arg.toList <+: (f.read t).toList)) := by
  have hcall := Primary.begins arg hname
  refine ⟨_, fun e rest => hcall.read, ?_, ?_⟩
  · intro text htext
    exact parse_eq_ok_iff_isLayout.2 (htext.isLayout (.single (.single (.primary hcall))))
  · intro t
    have hmatch : Glob.matchText (Glob.beginning arg) (f.read t) =
        decide (arg.toList <+: (f.read t).toList) := by
      rw [Bool.eq_iff_iff, Glob.matchText_beginning, decide_eq_true_iff]
    rw [evaluate, readField_name, Except.bind, globText, hmatch]

/-- In `startsWith( ref, 'v[1-9]*')` the brackets, the hyphen and the star stand for themselves. -/
theorem startsWith_iff_prefix_brackets : ("ref", Field.ref) ∈ Field.aliases ∧
    ∃ c, parse "startsWith( ref, 'v[1-9]*')" = .ok c ∧
      evaluate ⟨.push, "main", "v[1-9]*.0"⟩ c = .ok true ∧
      evaluate ⟨.push, "main", "v1.0"⟩ c = .ok false := by
  have hname : ("ref", Field.ref) ∈ Field.aliases := by decide
  obtain ⟨c, -, hparse, hevaluate⟩ := startsWith_iff_prefix hname "v[1-9]*"
  have htext : Carries (startsWithCall "ref" "v[1-9]*") "startsWith( ref, 'v[1-9]*')".toList := by
    have hblank : Blank [' '] := List.forall_mem_singleton.2 (by decide)
    exact .bare (.cons .nil (.cons .nil (.cons hblank (.cons .nil (.cons hblank (.cons .nil (.nil .nil)))))))
  refine ⟨hname, c, hparse _ htext, ?_, ?_⟩
  · exact (hevaluate _).trans (congrArg Except.ok (by decide))
  · exact (hevaluate _).trans (congrArg Except.ok (by decide))

end Condition

end MergeGate
