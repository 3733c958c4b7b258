import Frontend.Json.Record
import Frontend.Proofs.Json.Grammar

set_option autoImplicit false

namespace Frontend.Json

-- What can come behind a value.
def Ended (rest : List Char) : Prop := ∀ c, rest.head? = some c → c ∈ [' ', '\t', '\n', '\r', ',', ']', '\x7d']

theorem blank_iff (c : Char) : isBlank c = true ↔ c ∈ [' ', '\t', '\n', '\r'] := by
  simp [isBlank, or_assoc]

theorem skip_gap (gap text : List Char) (blank : Blank gap) : skipBlanks (gap ++ text) = skipBlanks text := by
  apply List.dropWhile_append_of_pos
  intro c member
  exact (blank_iff c).mpr (blank c member)

theorem skip_visible (c : Char) (text : List Char) (visible : isBlank c = false) : skipBlanks (c :: text) = c :: text := by
  rw [skipBlanks, List.dropWhile_cons, if_neg (by simp [visible])]

theorem ended_cons (c : Char) (rest : List Char) (mark : c ∈ [' ', '\t', '\n', '\r', ',', ']', '\x7d']) : Ended (c :: rest) := by
  intro first same
  rw [← Option.some.inj same]
  exact mark

theorem ended_gap (gap rest : List Char) (blank : Blank gap) (ended : Ended rest) : Ended (gap ++ rest) := by
  cases gap with
  | nil => exact ended
  | cons c gap =>
      have here := blank c List.mem_cons_self
      exact ended_cons c _ (List.mem_append_left [',', ']', '\x7d'] here)

theorem ended_halted (rest : List Char) (ended : Ended rest) : Decimal.Halted rest := by
  cases rest with
  | nil => exact Decimal.halted_nil
  | cons c rest =>
      have mark := ended c rfl
      have marks : ∀ c ∈ [' ', '\t', '\n', '\r', ',', ']', '\x7d'], Decimal.isDigit c = false ∧ c ≠ '.' ∧ c ≠ 'e' ∧ c ≠ 'E' := by
        simp [Decimal.isDigit]
      obtain ⟨digit, point, small, large⟩ := marks c mark
      refine ⟨digit, ?_, ?_⟩
      · simpa using point
      · simp [small, large]

section Strings

theorem hex_value (digit : Char × Nat) (known : digit ∈ hexDigits) : hexValue? digit.1 = some digit.2 := by
  have each : hexDigits.all (fun digit => hexValue? digit.1 == some digit.2) = true := by decide
  simpa using List.all_eq_true.mp each digit known

theorem read_code (code : List Char) (unit : Nat) (rest : List Char) (written : CodeText code unit) :
    readHex (code ++ rest) = .ok (unit, rest) := by
  cases written with
  | digits a b c d knownA knownB knownC knownD =>
      simp only [List.cons_append, List.nil_append, readHex, hex_value _ knownA, hex_value _ knownB, hex_value _ knownC,
        hex_value _ knownD]

theorem short_escape (mark plain : Char) (known : (mark, plain) ∈ shortEscapes) : mark ≠ 'u' ∧ escapedChar? mark = some plain := by
  have each : shortEscapes.all (fun escape => escape.1 != 'u' && escapedChar? escape.1 == some escape.2) = true := by decide
  simpa using List.all_eq_true.mp each (mark, plain) known

theorem char_not_surrogate (c : Char) : isLowSurrogate c.toNat = false ∧ isHighSurrogate c.toNat = false := by
  have valid := c.valid
  simp only [UInt32.isValidChar, Nat.isValidChar] at valid
  change c.toNat < 0xd800 ∨ 0xdfff < c.toNat ∧ c.toNat < 0x110000 at valid
  simp only [isLowSurrogate, isHighSurrogate, Bool.and_eq_false_imp, decide_eq_true_eq, decide_eq_false_iff_not]
  omega

theorem read_unicode (code : List Char) (c : Char) (rest : List Char) (written : CodeText code c.toNat) :
    readUnicode (code ++ rest) = .ok (c, rest) := by
  obtain ⟨low, high⟩ := char_not_surrogate c
  simp only [readUnicode, read_code code c.toNat rest written, low, high, Char.ofNat_toNat, Bool.false_eq_true, if_false]

theorem read_pair (first second : List Char) (high low : Nat) (c : Char) (rest : List Char) (highSmall : high < 0x400)
    (lowSmall : low < 0x400) (firstWritten : CodeText first (0xd800 + high)) (secondWritten : CodeText second (0xdc00 + low))
    (joined : c.toNat = 0x10000 + high * 0x400 + low) :
    readUnicode (first ++ '\\' :: 'u' :: (second ++ rest)) = .ok (c, rest) := by
  have firstHigh : isLowSurrogate (0xd800 + high) = false ∧ isHighSurrogate (0xd800 + high) = true := by
    simp [isLowSurrogate, isHighSurrogate]
    omega
  have secondLow : isLowSurrogate (0xdc00 + low) = true := by
    simp [isLowSurrogate]
    omega
  have same : joinSurrogates (0xd800 + high) (0xdc00 + low) = c := by
    rw [joinSurrogates, Nat.add_sub_cancel_left, Nat.add_sub_cancel_left, ← joined, Char.ofNat_toNat]
  simp only [readUnicode, read_code first _ _ firstWritten, readLowSurrogate, read_code second _ _ secondWritten, firstHigh.1,
    firstHigh.2, secondLow, same, Bool.false_eq_true, if_false, if_true]

theorem read_plain (c : Char) (text chars rest : List Char) (quote : c ≠ '"') (backslash : c ≠ '\\') (visible : 0x20 ≤ c.toNat)
    (read : readChars text = .ok (chars, rest)) : readChars (c :: text) = .ok (c :: chars, rest) := by
  rw [readChars, if_neg quote, if_neg backslash, if_neg (Nat.not_lt.mpr visible), read]

theorem read_escaped (plain : Char) (text behind chars rest : List Char) (escape : readEscape text = .ok (plain, behind))
    (read : readChars behind = .ok (chars, rest)) : readChars ('\\' :: text) = .ok (plain :: chars, rest) := by
  rw [readChars, if_neg (by decide), if_pos rfl]
  split
  · rename_i failed
    rw [escape] at failed
    cases failed
  · rename_i done
    rw [escape] at done
    cases done
    rw [read]

theorem skip_escaped (text behind : List Char) (escape : skipEscape text = .ok behind) :
    skipChars ('\\' :: text) = skipChars behind := by
  rw [skipChars, if_neg (by decide), if_pos rfl]
  split
  · rename_i failed
    rw [escape] at failed
    cases failed
  · rename_i done
    rw [escape] at done
    cases done
    rfl

theorem read_spelled (text chars rest : List Char) (spelled : SpelledText text chars) :
    readChars (text ++ '"' :: rest) = .ok (chars, rest) := by
  induction spelled with
  | nothing => rw [List.nil_append, readChars, if_pos rfl]
  | plain c text chars quote backslash visible _ ih => exact read_plain c _ chars rest quote backslash visible ih
  | short mark plain text chars known _ ih =>
      obtain ⟨other, escape⟩ := short_escape mark plain known
      rw [List.cons_append, List.cons_append]
      refine read_escaped plain _ (text ++ '"' :: rest) chars rest ?_ ih
      rw [readEscape, if_neg other, escape]
  | code code c text chars written _ ih =>
      rw [List.cons_append, List.cons_append, List.append_assoc]
      refine read_escaped c _ (text ++ '"' :: rest) chars rest ?_ ih
      rw [readEscape, if_pos rfl]
      exact read_unicode code c _ written
  | pair first second high low c text chars highSmall lowSmall firstWritten secondWritten joined _ ih =>
      rw [List.cons_append, List.cons_append, List.append_assoc, List.cons_append, List.cons_append, List.append_assoc]
      refine read_escaped c _ (text ++ '"' :: rest) chars rest ?_ ih
      rw [readEscape, if_pos rfl]
      exact read_pair first second high low c _ highSmall lowSmall firstWritten secondWritten joined

theorem skip_quoted (text rest : List Char) (quoted : QuotedText text) : skipChars (text ++ '"' :: rest) = .ok rest := by
  induction quoted with
  | nothing => rw [List.nil_append, skipChars, if_pos rfl]
  | plain c text quote backslash visible _ ih =>
      rw [List.cons_append, skipChars, if_neg quote, if_neg backslash, if_neg (Nat.not_lt.mpr visible), ih]
  | short mark plain text known _ ih =>
      obtain ⟨other, escape⟩ := short_escape mark plain known
      rw [List.cons_append, List.cons_append, skip_escaped _ (text ++ '"' :: rest), ih]
      simp [skipEscape, other, escape]
  | code code unit text written _ ih =>
      rw [List.cons_append, List.cons_append, List.append_assoc, skip_escaped _ (text ++ '"' :: rest), ih]
      simp [skipEscape, read_code code unit _ written]

end Strings

end Frontend.Json
