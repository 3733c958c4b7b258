import Mathlib.Data.List.Basic
import Frontend.Text.Control

set_option autoImplicit false

namespace Frontend.Text

theorem printable_char_quiet (c : Char) (quiet : isControl c = false) : printableChar c = [c] := by
  rw [printableChar, quiet, if_neg Bool.false_ne_true]

theorem printable_chars (text : String) : (printable text).toList = text.toList.flatMap printableChar := by
  unfold printable
  cases special : text.toList.any isControl with
  | true => rw [if_pos rfl, String.toList_ofList]
  | false =>
      rw [if_neg Bool.false_ne_true]
      have quiet : ∀ c ∈ text.toList, printableChar c = [c] := by
        intro c member
        apply printable_char_quiet
        simpa using List.any_eq_false.mp special c member
      rw [List.flatMap_congr quiet]
      simp

theorem hex_digit_quiet (digit : Nat) (small : digit < 16) : isControl (hexDigit digit) = false := by
  have each : ∀ digit < 16, isControl (hexDigit digit) = false := by decide
  exact each digit small

theorem hex_digits_quiet (n : Nat) (c : Char) (member : c ∈ hexDigits n) : isControl c = false := by
  induction n using hexDigits.induct with
  | case1 n small =>
      rw [hexDigits, if_pos small, List.mem_singleton] at member
      rw [member]
      exact hex_digit_quiet n small
  | case2 n large ih =>
      rw [hexDigits, if_neg large, List.mem_append, List.mem_singleton] at member
      rcases member with front | last
      · exact ih front
      · rw [last]
        exact hex_digit_quiet _ (Nat.mod_lt n (by decide))

def letterEscapes : List (List Char) := [['\\', '0'], ['\\', 't'], ['\\', 'n'], ['\\', 'r']]

theorem control_escape_cases (c : Char) :
    controlEscape c ∈ letterEscapes ∨ controlEscape c = '\\' :: 'u' :: '\x7b' :: (hexDigits c.toNat ++ ['\x7d']) := by
  unfold controlEscape
  iterate 4
    split
    · exact Or.inl (by decide)
  exact Or.inr rfl

theorem control_escape_quiet (c shown : Char) (member : shown ∈ controlEscape c) : isControl shown = false := by
  have inLetters : ∀ escape ∈ letterEscapes, escape.any isControl = false := by decide
  rcases control_escape_cases c with letter | code
  · exact Bool.eq_false_iff.mpr (List.any_eq_false.mp (inLetters _ letter) shown member)
  · simp only [code, List.mem_cons, List.mem_append, List.not_mem_nil, or_false] at member
    rcases member with rfl | rfl | rfl | digit | rfl
    · decide
    · decide
    · decide
    · exact hex_digits_quiet c.toNat shown digit
    · decide

theorem control_escape_start (c : Char) : (controlEscape c).head? = some '\\' := by
  have inLetters : ∀ escape ∈ letterEscapes, escape.head? = some '\\' := by decide
  rcases control_escape_cases c with letter | code
  · exact inLetters _ letter
  · rw [code]
    rfl

theorem printable_quiet (text : String) (shown : Char) (member : shown ∈ (printable text).toList) : isControl shown = false := by
  rw [printable_chars, List.mem_flatMap] at member
  obtain ⟨c, _, here⟩ := member
  cases control : isControl c with
  | false =>
      rw [printable_char_quiet c control, List.mem_singleton] at here
      rw [here]
      exact control
  | true =>
      rw [printableChar, if_pos control] at here
      exact control_escape_quiet c shown here

-- Each character is shown by a text of its own, which starts with the character itself or with a backslash.
theorem printable_char_start (c : Char) : (printableChar c).head? = some c ∨ (printableChar c).head? = some '\\' := by
  cases control : isControl c with
  | false => exact Or.inl (by rw [printable_char_quiet c control]; rfl)
  | true => exact Or.inr (by rw [printableChar, if_pos control]; exact control_escape_start c)

theorem printable_empty (chars : List Char) (shown : chars.flatMap printableChar = []) : chars = [] := by
  cases chars with
  | nil => rfl
  | cons first rest =>
      have empty := (List.append_eq_nil_iff.mp shown).1
      have start := printable_char_start first
      simp [empty] at start

theorem printable_single (chars : List Char) (c : Char) (plain : c ≠ '\\') (shown : chars.flatMap printableChar = [c]) :
    chars = [c] := by
  cases chars with
  | nil => cases shown
  | cons first rest =>
      have start := printable_char_start first
      rw [List.flatMap_cons] at shown
      cases escape : printableChar first with
      | nil => simp [escape] at start
      | cons begin more =>
          rw [escape] at shown start
          obtain ⟨same, behind⟩ := List.cons.inj shown
          rw [printable_empty rest (List.append_eq_nil_iff.mp behind).2]
          rcases start with itself | backslash
          · rw [← Option.some.inj itself, same]
          · exact absurd (same.symm.trans (Option.some.inj backslash)) plain

end Frontend.Text
