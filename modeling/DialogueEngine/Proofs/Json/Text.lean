import DialogueEngine.Json.Parser

/-! # Strings of documents

The lexeme of a text is cut off a document as a whole, and stands for that text again.

* `escapeByte_cases` — the three forms that a byte of a text has in a lexeme.
* `scanString_lexemeOf` — the lexeme of a text ends where its closing quote stands.
* `textOf?_lexemeOf` — a text is what its lexeme stands for.
-/

namespace DialogueEngine.Json

/-- A byte of a text is written as a short escape, in hexadecimal, or as it is. -/
theorem escapeByte_cases (b : UInt8) :
    (∃ letter, letter ≠ 0x75 ∧ shortUnescape? letter = some b ∧ escapeByte b = [0x5C, letter]) ∨
    (b < 0x20 ∧ ∃ c d, hexUnit? 0x30 0x30 c d = some b.toNat ∧
      escapeByte b = [0x5C, 0x75, 0x30, 0x30, c, d]) ∨
    (0x20 ≤ b ∧ b ≠ 0x22 ∧ b ≠ 0x5C ∧ escapeByte b = [b]) := by
  have hex : ∀ n < 32, hexUnit? 0x30 0x30 (hexDigit (n / 16)) (hexDigit (n % 16)) = some n := by
    decide
  unfold escapeByte
  split
  · rename_i c short
    refine .inl ⟨ascii c, ?_⟩
    unfold shortEscape? at short
    split at short
    all_goals cases short
    all_goals
      rename_i byte
      refine ⟨by decide, ?_, rfl⟩
      rw [← @UInt8.ofNat_toNat b, byte]
      rfl
  · rename_i plain
    split
    · rename_i control
      exact .inr (.inl ⟨control, _, _, hex b.toNat control, rfl⟩)
    · rename_i printable
      refine .inr (.inr ⟨UInt8.not_lt.mp printable, ?_, ?_, rfl⟩)
      · rintro rfl
        cases plain
      · rintro rfl
        cases plain

theorem scanString_escapeByte (b : UInt8) (bytes : List UInt8) :
    scanString (escapeByte b ++ bytes) =
      (scanString bytes).map fun r => (escapeByte b ++ r.1, r.2) := by
  rcases escapeByte_cases b with ⟨letter, other, short, form⟩ | ⟨-, c, d, hex, form⟩ |
    ⟨printable, quote, backslash, form⟩
  · rw [form]
    simp [scanString, other, short]
  · rw [form]
    simp [scanString, hex]
  · rw [form]
    -- `quote` rules the pattern of a closing quote out
    simp [scanString, backslash, UInt8.not_lt.mpr printable]

theorem scanString_escape (bytes rest : List UInt8) :
    scanString (escape bytes ++ 0x22 :: rest) = some (escape bytes, rest) := by
  induction bytes with
  | nil => rfl
  | cons b bytes ih =>
    change scanString (escapeByte b ++ escape bytes ++ _) = some (escapeByte b ++ escape bytes, rest)
    rw [List.append_assoc, scanString_escapeByte, ih]
    rfl

/-- The lexeme of a text ends at the quote behind it. -/
theorem scanString_lexemeOf (s : String) (rest : List UInt8) :
    scanString (lexemeOf s ++ 0x22 :: rest) = some (lexemeOf s, rest) :=
  scanString_escape _ rest

theorem unescape_escapeByte (b : UInt8) (bytes : List UInt8) :
    unescape (escapeByte b ++ bytes) = (unescape bytes).map (b :: ·) := by
  have piece {p : Piece}
      (pieces : pieces? (escapeByte b ++ bytes) = (pieces? bytes).bind fun ps => some (p :: ps))
      (join : ∀ ps, joinPieces (p :: ps) = (joinPieces ps).map (b :: ·)) :
      unescape (escapeByte b ++ bytes) = (unescape bytes).map (b :: ·) := by
    unfold unescape
    rw [pieces]
    cases pieces? bytes with
    | none => rfl
    | some ps => exact join ps
  rcases escapeByte_cases b with ⟨letter, other, short, form⟩ | ⟨control, c, d, hex, form⟩ |
    ⟨-, -, backslash, form⟩
  · refine piece (p := .byte b) ?_ fun _ => rfl
    rw [form]
    simp [pieces?, other, short]
  · refine piece (p := .unit b.toNat) ?_ fun ps => ?_
    · rw [form]
      simp [pieces?, hex]
    · -- a control character is no half of a surrogate pair, and one byte in UTF-8
      have point : ∀ n < 32, encodePoint n = [UInt8.ofNat n] := by decide
      have small : b.toNat < 32 := control
      have high : isHighSurrogate b.toNat = false := by
        simp only [isHighSurrogate, Bool.and_eq_false_iff, decide_eq_false_iff_not]
        omega
      have low : isLowSurrogate b.toNat = false := by
        simp only [isLowSurrogate, Bool.and_eq_false_iff, decide_eq_false_iff_not]
        omega
      rw [joinPieces.eq_def]
      dsimp only
      rw [high, low, point _ small, UInt8.ofNat_toNat]
      rfl
  · refine piece (p := .byte b) ?_ fun _ => rfl
    rw [form]
    simp [pieces?, backslash]

theorem unescape_escape (bytes : List UInt8) : unescape (escape bytes) = some bytes := by
  induction bytes with
  | nil => rfl
  | cons b bytes ih =>
    change unescape (escapeByte b ++ escape bytes) = _
    rw [unescape_escapeByte, ih]
    rfl

/-- A text is what its lexeme stands for. -/
@[simp] theorem textOf?_lexemeOf (s : String) : textOf? (lexemeOf s) = some s := by
  unfold textOf? lexemeOf
  rw [unescape_escape]
  change textOfBytes? s.toUTF8.data.toList = some s
  have bytes : (⟨s.toUTF8.data.toList.toArray⟩ : ByteArray) = s.toUTF8 := by
    rw [Array.toArray_toList]
  unfold textOfBytes? String.fromUTF8?
  rw [bytes, dif_pos (show s.toUTF8.IsValidUTF8 from s.isValidUTF8)]
  rfl

end DialogueEngine.Json
