import Frontend.Proofs.Options.Document

set_option autoImplicit false

namespace Frontend

open Json

section Strings

theorem hex_digit_known (n : Nat) (small : n < 16) : (Text.hexDigit n, n) ∈ Json.hexDigits := by
  have each : ∀ n < 16, (Text.hexDigit n, n) ∈ Json.hexDigits := by decide
  exact each n small

theorem control_code (n : Nat) (control : n < 0x20) :
    CodeText ['0', '0', Text.hexDigit (n / 16), Text.hexDigit (n % 16)] n := by
  have high := hex_digit_known (n / 16) (by omega)
  have low := hex_digit_known (n % 16) (by omega)
  have zero : ('0', 0) ∈ Json.hexDigits := by decide
  have code := CodeText.digits _ _ _ _ zero zero high low
  have sum : 0 * 4096 + 0 * 256 + n / 16 * 16 + n % 16 = n := by omega
  rw [sum] at code
  exact code

-- Each character is written in one of the ways in which a string may hold it.
theorem written_char_cases (c : Char) :
    (∃ mark, (mark, c) ∈ shortEscapes ∧ writtenChar c = ['\\', mark]) ∨
      (∃ code, CodeText code c.toNat ∧ writtenChar c = '\\' :: 'u' :: code) ∨
      (c ≠ '"' ∧ c ≠ '\\' ∧ 0x20 ≤ c.toNat ∧ writtenChar c = [c]) := by
  rw [writtenChar]
  by_cases quote : c = '"'
  · exact Or.inl ⟨'"', by simp [shortEscapes, quote], if_pos quote⟩
  rw [if_neg quote]
  by_cases backslash : c = '\\'
  · exact Or.inl ⟨'\\', by simp [shortEscapes, backslash], if_pos backslash⟩
  rw [if_neg backslash]
  by_cases backspace : c = '\x08'
  · exact Or.inl ⟨'b', by simp [shortEscapes, backspace], if_pos backspace⟩
  rw [if_neg backspace]
  by_cases feed : c = '\x0c'
  · exact Or.inl ⟨'f', by simp [shortEscapes, feed], if_pos feed⟩
  rw [if_neg feed]
  by_cases line : c = '\n'
  · exact Or.inl ⟨'n', by simp [shortEscapes, line], if_pos line⟩
  rw [if_neg line]
  by_cases back : c = '\r'
  · exact Or.inl ⟨'r', by simp [shortEscapes, back], if_pos back⟩
  rw [if_neg back]
  by_cases tab : c = '\t'
  · exact Or.inl ⟨'t', by simp [shortEscapes, tab], if_pos tab⟩
  rw [if_neg tab]
  by_cases control : c.toNat < 0x20
  · exact Or.inr (Or.inl ⟨_, control_code c.toNat control, if_pos control⟩)
  · exact Or.inr (Or.inr ⟨quote, backslash, Nat.le_of_not_lt control, if_neg control⟩)

theorem written_spelled (chars : List Char) : SpelledText (chars.flatMap writtenChar) chars := by
  induction chars with
  | nil => exact .nothing
  | cons c chars ih =>
      rw [List.flatMap_cons]
      rcases written_char_cases c with ⟨mark, known, written⟩ | ⟨code, spelled, written⟩ |
        ⟨quote, backslash, visible, written⟩
      · rw [written]
        exact .short mark c _ chars known ih
      · rw [written]
        exact .code code c _ chars spelled ih
      · rw [written]
        exact .plain c _ chars quote backslash visible ih

theorem written_string (text : String) : StringText (writtenString text) text :=
  .quoted _ text (written_spelled text.toList)

end Strings

section Objects

theorem written_member (key : String) (value : List Char) :
    writtenString key ++ ':' :: value = memberText (key.toList.flatMap writtenChar) [] [] value [] := by
  simp only [writtenString, memberText, List.cons_append, List.append_assoc, List.nil_append, List.append_nil]

theorem written_members (first : String × List Char) (others : List (String × List Char)) :
    MembersText (first :: others)
      ([','].intercalate ((first :: others).map fun member => writtenString member.1 ++ ':' :: member.2)) := by
  induction others generalizing first with
  | nil =>
      rw [List.map_singleton, List.intercalate_singleton, written_member]
      exact .last first.1 _ [] [] first.2 [] (written_spelled first.1.toList) blank_nil blank_nil blank_nil
  | cons second others ih =>
      rw [List.map_cons, List.map_cons, List.intercalate_cons_cons, written_member first.1, List.append_assoc]
      exact .more first.1 _ [] [] first.2 [] [] _ _ (written_spelled first.1.toList) blank_nil blank_nil blank_nil blank_nil
        (ih second)

theorem written_object (first : String × List Char) (others : List (String × List Char)) :
    ObjectText (first :: others) (Options.writtenObject (first :: others)) :=
  .full _ [] _ blank_nil (written_members first others)

theorem digits_natural (n : Nat) (fits : n < UInt64.size) : NaturalText (Decimal.digits n) n :=
  ⟨Decimal.digits_whole n, Decimal.value_digits n, fits⟩

theorem written_nodes (maxNodes : Option Nat) (fits : ∀ n, maxNodes = some n → n < UInt64.size) :
    OptionalText NaturalText (Options.maxNodesText maxNodes) maxNodes := by
  cases maxNodes with
  | none => exact .nothing
  | some n => exact .given _ n (digits_natural n (fits n rfl))

theorem written_limits (limits : BuildLimits) (fits : ∀ n, limits.maxNodes = some n → n < UInt64.size) :
    LimitsText (Options.writtenObject [("allocPolicy", writtenString limits.policy.name),
      ("maxNodes", Options.maxNodesText limits.maxNodes)]) ⟨some limits.policy, some limits.maxNodes⟩ := by
  refine ⟨_, written_object _ _, ?_, ?_, ?_⟩
  · exact ⟨_, by simp, .name _ _ (written_string limits.policy.name)⟩
  · exact ⟨_, by simp, written_nodes limits.maxNodes fits⟩
  · simp [OthersFormed]

theorem written_layout (layout : Layout) (fits : layout.indentWidth < UInt64.size) :
    LayoutText (Options.writtenObject [("indentWidth", Decimal.digits layout.indentWidth),
      ("newLine", writtenString layout.newLine)]) ⟨some layout.indentWidth, some layout.newLine⟩ := by
  refine ⟨_, written_object _ _, ?_, ?_, ?_⟩
  · exact ⟨_, by simp, digits_natural layout.indentWidth fits⟩
  · exact ⟨_, by simp, written_string layout.newLine⟩
  · simp [OthersFormed]

end Objects

-- What a document tells that gives each option.
def Options.given (options : Options) : GivenOptions :=
  ⟨some ⟨some options.build.policy, some options.build.maxNodes⟩,
    some ⟨some options.printer.indentWidth, some options.printer.newLine⟩⟩

theorem written_document (options : Options) (nodesFit : ∀ n, options.build.maxNodes = some n → n < UInt64.size)
    (widthFits : options.printer.indentWidth < UInt64.size) : Document options.write options.given := by
  refine ⟨[], options.write.toList, [], by simp, blank_nil, blank_nil, ?_⟩
  rw [Options.write, String.toList_ofList]
  refine ⟨_, written_object _ _, ?_, ?_, ?_⟩
  · exact ⟨_, by simp, written_limits options.build nodesFit⟩
  · exact ⟨_, by simp, written_layout options.printer widthFits⟩
  · simp [OthersFormed]

theorem Options.read_write (options : Options) (nodesFit : ∀ n, options.build.maxNodes = some n → n < UInt64.size)
    (widthFits : options.printer.indentWidth < UInt64.size) :
    Document options.write options.given ∧ Options.read options.write = .ok options := by
  have document := written_document options nodesFit widthFits
  exact ⟨document, document_read options.write options.given document⟩

-- The largest numbers, and a line end with each kind of character.
def extreme : Options :=
  ⟨⟨.propagate, some 18446744073709551615⟩, ⟨18446744073709551615, "\x00\x1f\"\\/\r\n\t\x7f€😀"⟩⟩

theorem Options.read_write_extreme :
    (∀ n, extreme.build.maxNodes = some n → n < UInt64.size) ∧ extreme.printer.indentWidth < UInt64.size ∧
      Options.read extreme.write = .ok extreme := by
  have nodesFit : ∀ n, extreme.build.maxNodes = some n → n < UInt64.size := by
    rintro n ⟨⟩
    decide
  have widthFits : extreme.printer.indentWidth < UInt64.size := by decide
  exact ⟨nodesFit, widthFits, (Options.read_write extreme nodesFit widthFits).2⟩

end Frontend
