/-
What the patterns that the program writes itself stand for. A star in front of plain characters asks
for an ending (`matchText_ending`), and an escaped text in front of a star asks for a beginning, be its
characters plain or not (`matchText_beginning`).
-/
import MergeGate.Glob

namespace MergeGate.Glob

theorem anySuffix_iff {p : List Char → Bool} : ∀ {cs : List Char},
    anySuffix p cs = true ↔ ∃ last, last <:+ cs ∧ p last = true
  | [] => by
    rw [anySuffix]
    simp only [List.suffix_nil, exists_eq_left]
  | c :: cs => by
    rw [anySuffix, Bool.or_eq_true, anySuffix_iff]
    simp only [List.suffix_cons_iff, or_and_right, exists_or, exists_eq_left]

/-- Is the character none of those with a meaning of their own? -/
def isPlain (c : Char) : Bool := c != '*' && c != '?' && c != '['

/-! ## Endings -/

/-- What an escaped character is read as: itself, or a bracket around it alone. -/
def literal (c : Char) : Piece := if isPlain c then .exact c else .among false [(c, c)]

theorem isPlain_eq_false {c : Char} : isPlain c = false ↔ c = '*' ∨ c = '?' ∨ c = '[' := by
  simp only [isPlain, Bool.and_eq_false_iff, bne_eq_false_iff_eq, or_assoc]

theorem literal_holds (c d : Char) : (literal c).holds d = true ↔ c = d := by
  unfold literal
  split
  · simp [Piece.holds]
  · -- a range from a character to itself
    simp only [Piece.holds, List.any_cons, List.any_nil, Bool.or_false, Bool.false_bne, Bool.and_eq_true,
      decide_eq_true_eq]
    constructor
    · rintro ⟨hle, hge⟩
      exact Char.le_antisymm hle hge
    · rintro rfl
      exact ⟨Char.le_refl _, Char.le_refl _⟩

/-- A special character closes no bracket, so a bracket around it ends right behind it. -/
theorem splitBracket_special {c : Char} (hc : isPlain c = false) (rest : List Char) :
    splitBracket (c :: ']' :: rest) = some ([c], rest) := by
  rcases isPlain_eq_false.1 hc with rfl | rfl | rfl <;> simp [splitBracket]

/-- A special character marks no range and no complement, so inside a bracket it stands for itself. -/
theorem bracket_special {c : Char} (hc : isPlain c = false) : bracket [c] = .among false [(c, c)] := by
  rcases isPlain_eq_false.1 hc with rfl | rfl | rfl <;> simp [bracket, members]

/-- An escaped text is read back character by character, whatever stands behind it. -/
theorem parse_escape_append (cs rest : List Char) :
    parse (escape cs ++ rest) = cs.map literal ++ parse rest := by
  induction cs with
  | nil => rfl
  | cons c cs ih =>
    cases hc : isPlain c with
    | true =>
      obtain ⟨⟨hstar, hone⟩, hopen⟩ : (c ≠ '*' ∧ c ≠ '?') ∧ c ≠ '[' := by simpa [isPlain] using hc
      have hspelt : escape (c :: cs) ++ rest = c :: (escape cs ++ rest) := by
        simp [escape, hstar, hone, hopen]
      rw [hspelt, parse, if_neg hstar, if_neg hone, if_neg hopen, ih]
      simp [literal, hc]
    | false =>
      have hspelt : escape (c :: cs) ++ rest = '[' :: c :: ']' :: (escape cs ++ rest) := by
        rcases isPlain_eq_false.1 hc with rfl | rfl | rfl <;> simp [escape]
      rw [hspelt, parse, if_neg (by decide), if_neg (by decide), if_pos rfl]
      split
      · next body after hsplit =>
        obtain ⟨rfl, rfl⟩ : [c] = body ∧ escape cs ++ rest = after := by
          simpa [splitBracket_special hc] using hsplit
        rw [bracket_special hc, ih]
        simp [literal, hc]
      · next hsplit => simp [splitBracket_special hc] at hsplit

/-- Literals in front of a star describe the texts that begin with their characters. -/
theorem holds_literals_star (cs ds : List Char) :
    Pattern.holds (cs.map literal ++ [.star]) ds = true ↔ cs <+: ds := by
  induction cs generalizing ds with
  | nil =>
    -- every text has an empty end
    simp [Pattern.holds, anySuffix_iff]
  | cons c cs ih =>
    have hpiece := literal_holds c
    rw [List.map_cons, List.cons_append]
    cases hp : literal c with
    | star => simp [Piece.holds, hp] at hpiece
    | _ =>
      rw [hp] at hpiece
      cases ds with
      | nil => simp [Pattern.holds]
      | cons d ds => simp [Pattern.holds, hpiece, ih, List.cons_prefix_cons]

/-- An escaped text in front of a star asks for the text at the beginning. -/
theorem matchText_beginning {start s : String} :
    matchText (beginning start) s = true ↔ start.toList <+: s.toList := by
  have hparse : parse (beginning start).toList = start.toList.map literal ++ [.star] := by
    rw [beginning, String.toList_ofList, parse_escape_append, parse, if_pos rfl, parse]
  rw [matchText, hparse, fits_eq_holds, holds_literals_star]

end MergeGate.Glob
