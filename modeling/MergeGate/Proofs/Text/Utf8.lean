/-
Texts as bytes and back. The bytes of a character are read as that character, whatever follows them
(`decodeFrom_encodeChar`), so a text is what its bytes encode, and a file gives the text that was
written into it.
-/
import MergeGate.Folder.Basic

namespace MergeGate

namespace Text

variable {position value low high taken : Nat} {acc cs : List Char} {rest : List UInt8} {c : Char}

/-- A character is no surrogate, and there are no characters beyond the last. -/
theorem toNat_cases (c : Char) : c.toNat < 0xd800 ∨ 0xdfff < c.toNat ∧ c.toNat < 0x110000 := by
  have hvalid := c.valid
  simpa [UInt32.isValidChar, Nat.isValidChar] using hvalid

theorem toNat_ofNat_of_lt {n : Nat} (h : n < 256) : (UInt8.ofNat n).toNat = n := by
  rw [UInt8.toNat_ofNat']
  omega

/-- One more byte that continues a character. -/
theorem continued_succ {n byte : Nat} (hlow : low ≤ byte) (hhigh : byte ≤ high) (hbyte : byte < 256) :
    continued value low high taken (n + 1) (UInt8.ofNat byte :: rest) =
      continued (value * 64 + (byte - 0x80)) 0x80 0xbf (taken + 1) n rest := by
  rw [continued, toNat_ofNat_of_lt hbyte]
  simp [hlow, hhigh]

/-- Bytes that continue a character have been read with it. -/
theorem decodeFrom_skip : ∀ (bytes : List UInt8) (position : Nat),
    decodeFrom position bytes.length acc (bytes ++ rest) = decodeFrom (position + bytes.length) 0 acc rest
  | [], position => rfl
  | b :: bytes, position => by
    rw [List.length_cons, List.cons_append, decodeFrom, decodeFrom_skip bytes (position + 1)]
    congr 1
    omega

/-- A character is read by its first byte, and the others are passed over. -/
theorem decodeFrom_first {first : Nat} {bytes : List UInt8} (hfirst : first < 256)
    (hannounced : announced? first = some (bytes.length, value, low, high))
    (hcontinued : continued value low high 0 bytes.length (bytes ++ rest) = .ok c) :
    decodeFrom position 0 acc (UInt8.ofNat first :: bytes ++ rest) =
      decodeFrom (position + 1 + bytes.length) 0 (c :: acc) rest := by
  rw [List.cons_append, decodeFrom, toNat_ofNat_of_lt hfirst, hannounced]
  simp only [hcontinued]
  exact decodeFrom_skip bytes (position + 1)

/-! ### What first bytes announce -/

section

variable {n : Nat}

theorem announced?_two (h : 0x80 ≤ n) (h' : n < 0x800) :
    announced? (0xc0 + n / 64) = some (1, n / 64, 0x80, 0xbf) := by
  have hone : ¬ 0xc0 + n / 64 < 0x80 := by omega
  have htwo : 0xc2 ≤ 0xc0 + n / 64 ∧ 0xc0 + n / 64 ≤ 0xdf := by omega
  have hvalue : 0xc0 + n / 64 - 0xc0 = n / 64 := by omega
  simp [announced?, hone, htwo, hvalue]

/-- The limits of the second byte of three hold for what a character has there. -/
theorem announced?_three (h : 0x800 ≤ n) (h' : n < 0x10000) (hrange : n < 0xd800 ∨ 0xdfff < n) :
    ∃ low high, announced? (0xe0 + n / 4096) = some (2, n / 4096, low, high) ∧
      low ≤ 0x80 + n / 64 % 64 ∧ 0x80 + n / 64 % 64 ≤ high := by
  by_cases hfirst : n / 4096 = 0
  · refine ⟨0xa0, 0xbf, by simp [announced?, hfirst], ?_, ?_⟩ <;> omega
  by_cases hlast : n / 4096 = 0xd
  · refine ⟨0x80, 0x9f, by simp [announced?, hlast], ?_, ?_⟩ <;> omega
  refine ⟨0x80, 0xbf, ?_, ?_, ?_⟩
  · have hone : ¬ 0xe0 + n / 4096 < 0x80 := by omega
    have htwo : ¬ 0xe0 + n / 4096 ≤ 0xdf := by omega
    have hthree : 0xe1 ≤ 0xe0 + n / 4096 ∧ 0xe0 + n / 4096 ≤ 0xef := by omega
    have hnot : 0xe0 + n / 4096 ≠ 0xed := by omega
    have hvalue : 0xe0 + n / 4096 - 0xe0 = n / 4096 := by omega
    simp [announced?, hone, htwo, hthree, hnot, hvalue, hfirst]
  · omega
  · omega

/-- The limits of the second byte of four hold for what a character has there. -/
theorem announced?_four (h : 0x10000 ≤ n) (h' : n < 0x110000) :
    ∃ low high, announced? (0xf0 + n / 262144) = some (3, n / 262144, low, high) ∧
      low ≤ 0x80 + n / 4096 % 64 ∧ 0x80 + n / 4096 % 64 ≤ high := by
  by_cases hfirst : n / 262144 = 0
  · refine ⟨0x90, 0xbf, by simp [announced?, hfirst], ?_, ?_⟩ <;> omega
  by_cases hlast : n / 262144 = 4
  · refine ⟨0x80, 0x8f, by simp [announced?, hlast], ?_, ?_⟩ <;> omega
  refine ⟨0x80, 0xbf, ?_, ?_, ?_⟩
  · have hbetween : n / 262144 = 1 ∨ n / 262144 = 2 ∨ n / 262144 = 3 := by omega
    rcases hbetween with hn | hn | hn <;> simp [announced?, hn]
  · omega
  · omega

end

/-- The bytes of a character are read as that character. -/
theorem decodeFrom_encodeChar (c : Char) (position : Nat) (acc : List Char) (rest : List UInt8) :
    decodeFrom position 0 acc (encodeChar c ++ rest) =
      decodeFrom (position + (encodeChar c).length) 0 (c :: acc) rest := by
  have hchar : Char.ofNat c.toNat = c := Char.ofNat_toNat c
  have hrange := toNat_cases c
  rw [encodeChar]
  generalize c.toNat = n at hchar hrange
  have hpow : Nat.pow 64 0 = 1 ∧ Nat.pow 64 1 = 64 ∧ Nat.pow 64 2 = 4096 := by decide
  by_cases hone : n < 0x80
  · have hannounced : announced? n = some (0, n, 0, 0) := by simp [announced?, hone]
    simp only [hone, if_true]
    exact decodeFrom_first (by omega) hannounced (by simp [continued, hchar])
  by_cases htwo : n < 0x800
  · simp only [hone, htwo, if_true, if_false, hpow]
    refine decodeFrom_first (by omega) (announced?_two (by omega) htwo) ?_
    rw [List.length_singleton, List.singleton_append, continued_succ (by omega) (by omega) (by omega), continued]
    have hvalue : n / 64 * 64 + (0x80 + n / 1 % 64 - 0x80) = n := by omega
    rw [hvalue, hchar]
  by_cases hthree : n < 0x10000
  · simp only [hone, htwo, hthree, if_true, if_false, hpow]
    obtain ⟨low, high, hannounced, hlow, hhigh⟩ := announced?_three (by omega) hthree (by omega)
    refine decodeFrom_first (by omega) hannounced ?_
    rw [List.length_cons, List.length_singleton, List.cons_append, List.singleton_append,
      continued_succ hlow hhigh (by omega), continued_succ (by omega) (by omega) (by omega), continued]
    have hvalue : (n / 4096 * 64 + (0x80 + n / 64 % 64 - 0x80)) * 64 + (0x80 + n / 1 % 64 - 0x80) = n := by
      omega
    rw [hvalue, hchar]
  · simp only [hone, htwo, hthree, if_false, hpow]
    obtain ⟨low, high, hannounced, hlow, hhigh⟩ := announced?_four (n := n) (by omega) (by omega)
    refine decodeFrom_first (by omega) hannounced ?_
    rw [List.length_cons, List.length_cons, List.length_singleton, List.cons_append, List.cons_append,
      List.singleton_append, continued_succ hlow hhigh (by omega),
      continued_succ (by omega) (by omega) (by omega), continued_succ (by omega) (by omega) (by omega), continued]
    have hvalue : ((n / 262144 * 64 + (0x80 + n / 4096 % 64 - 0x80)) * 64 + (0x80 + n / 64 % 64 - 0x80)) * 64 +
        (0x80 + n / 1 % 64 - 0x80) = n := by
      omega
    rw [hvalue, hchar]

theorem decodeFrom_encode : ∀ (cs : List Char) (position : Nat) (acc : List Char),
    decodeFrom position 0 acc (encode cs) = .ok (acc.reverse ++ cs)
  | [], position, acc => by
    rw [List.append_nil]
    rfl
  | c :: cs, position, acc => by
    have hcons : encode (c :: cs) = encodeChar c ++ encode cs := rfl
    rw [hcons, decodeFrom_encodeChar, decodeFrom_encode cs]
    simp

/-- A text is what its bytes encode. -/
theorem decode_encode (cs : List Char) : decode (encode cs) = .ok cs := decodeFrom_encode cs 0 []

end Text

end MergeGate
