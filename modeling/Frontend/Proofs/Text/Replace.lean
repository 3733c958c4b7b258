import Frontend.Text.Replace

set_option autoImplicit false

namespace Frontend.Text

def occurrences (piece : List Char) : List Char → Nat
  | [] => 0
  | c :: rest => (piece.isPrefixOf (c :: rest)).toNat + occurrences piece rest

theorem occurrences_zero (piece text : List Char) (nonempty : piece ≠ []) :
    occurrences piece text = 0 ↔ ¬ piece <:+: text := by
  induction text with
  | nil => simp [occurrences, nonempty]
  | cons c rest ih =>
      rw [occurrences, Nat.add_eq_zero_iff, ih, List.infix_cons_iff, not_or, ← List.isPrefixOf_iff_prefix]
      cases piece.isPrefixOf (c :: rest) <;> simp

-- A character that is not in the piece keeps what stands before it from what stands after it.
theorem begins_before (piece text rest : List Char) (c : Char) (foreign : c ∉ piece) :
    piece.isPrefixOf (text ++ c :: rest) = piece.isPrefixOf text := by
  induction piece generalizing text with
  | nil => rfl
  | cons first piece ih =>
      rw [List.mem_cons, not_or] at foreign
      cases text with
      | nil =>
          rw [List.nil_append, List.isPrefixOf_cons_cons, beq_eq_false_iff_ne.mpr (Ne.symm foreign.1)]
          rfl
      | cons d text =>
          rw [List.cons_append, List.isPrefixOf_cons_cons, List.isPrefixOf_cons_cons, ih text foreign.2]

-- The cells of a text with blanks. All blanks take the same filling.
def cellText (filling : List Char) : Option Char → List Char
  | none => filling
  | some c => [c]

def spread (filling : List Char) (cells : List (Option Char)) : List Char :=
  cells.flatMap (cellText filling)

theorem spread_blank (filling : List Char) (cells : List (Option Char)) :
    spread filling (none :: cells) = filling ++ spread filling cells := rfl

theorem spread_char (filling : List Char) (c : Char) (cells : List (Option Char)) :
    spread filling (some c :: cells) = c :: spread filling cells := rfl

theorem spread_chars (filling text : List Char) : spread filling (text.map some) = text := by
  rw [spread, List.flatMap_map]
  exact List.flatMap_singleton' text

theorem count_chars (text : List Char) : (text.map some).count none = 0 := by
  simp [List.count_eq_zero]

theorem spread_length (filling : List Char) (cells : List (Option Char)) :
    (spread filling cells).length + cells.count none = cells.length + cells.count none * filling.length := by
  induction cells with
  | nil => simp [spread]
  | cons cell cells ih =>
      cases cell with
      | none =>
          rw [spread_blank, List.count_cons_self, List.length_append, List.length_cons, Nat.succ_mul]
          omega
      | some c =>
          rw [spread_char, List.count_cons_of_ne (Option.some_ne_none c), List.length_cons, List.length_cons]
          omega

theorem counts_equal (pieces blanks long short : Nat) (different : long ≠ short)
    (balance : pieces * long + blanks * short = pieces * short + blanks * long) : pieces = blanks := by
  have product : ((pieces : Int) - blanks) * ((long : Int) - short) = 0 := by
    rw [Int.sub_mul, Int.mul_sub, Int.mul_sub]
    omega
  rcases Int.mul_eq_zero.mp product with equal | equal
  · omega
  · omega

theorem replace_skip (piece filling rest : List Char) (c : Char) (absent : piece.isPrefixOf (c :: rest) = false) :
    replaceChars piece filling (c :: rest) = c :: replaceChars piece filling rest := by
  rw [replaceChars, absent, if_neg Bool.false_ne_true]

-- A piece with a mark in front.
section Marked

variable (mark : Char) (tail filling : List Char)

theorem begins_here (rest : List Char) : (mark :: tail).isPrefixOf (mark :: (tail ++ rest)) = true :=
  List.isPrefixOf_iff_prefix.mpr (List.prefix_append (mark :: tail) rest)

theorem replace_here (rest : List Char) :
    replaceChars (mark :: tail) filling (mark :: tail ++ rest) =
      filling ++ replaceChars (mark :: tail) filling rest := by
  rw [List.cons_append, replaceChars, if_pos (begins_here mark tail rest), List.length_cons, Nat.add_sub_cancel,
    List.drop_left]

-- A text is read in steps: over a whole piece, or over one character at which no piece begins.
theorem read_induct (motive : List Char → Prop) (nil : motive [])
    (here : ∀ rest, motive rest → motive (mark :: tail ++ rest))
    (skip : ∀ c rest, (mark :: tail).isPrefixOf (c :: rest) = false → motive rest → motive (c :: rest))
    (text : List Char) : motive text := by
  induction text using replaceChars.induct (mark :: tail) with
  | case1 => exact nil
  | case2 c rest found ih =>
      obtain ⟨later, split⟩ := List.isPrefixOf_iff_prefix.mp found
      rw [← split]
      apply here
      rw [List.cons_append, List.cons.injEq] at split
      rw [← split.2, List.length_cons, Nat.add_sub_cancel, List.drop_left] at ih
      exact ih
  | case3 c rest absent ih => exact skip c rest (Bool.eq_false_iff.mpr absent) ih

theorem replace_self (text : List Char) : replaceChars (mark :: tail) (mark :: tail) text = text := by
  induction text using read_induct mark tail with
  | nil => rw [replaceChars]
  | here rest ih => rw [replace_here, ih]
  | skip c rest absent ih => rw [replace_skip _ _ rest c absent, ih]

theorem replace_apart (text rest : List Char) (c : Char) (foreign : c ∉ mark :: tail) :
    replaceChars (mark :: tail) filling (text ++ c :: rest) =
      replaceChars (mark :: tail) filling text ++ replaceChars (mark :: tail) filling (c :: rest) := by
  induction text using read_induct mark tail with
  | nil => rw [replaceChars.eq_1, List.nil_append, List.nil_append]
  | here later ih => rw [List.append_assoc, replace_here, ih, replace_here, List.append_assoc]
  | skip d later absent ih =>
      have begins := begins_before (mark :: tail) (d :: later) rest c foreign
      rw [absent, List.cons_append] at begins
      rw [List.cons_append, replace_skip _ _ _ d begins, ih, replace_skip _ _ _ d absent, List.cons_append]

theorem replace_unmarked (text rest : List Char) (unmarked : mark ∉ text) :
    replaceChars (mark :: tail) filling (text ++ rest) = text ++ replaceChars (mark :: tail) filling rest := by
  induction text with
  | nil => rfl
  | cons c text ih =>
      rw [List.mem_cons, not_or] at unmarked
      have absent : (mark :: tail).isPrefixOf (c :: (text ++ rest)) = false := by
        rw [List.isPrefixOf_cons_cons, beq_eq_false_iff_ne.mpr unmarked.1]
        rfl
      rw [List.cons_append, replace_skip _ _ _ c absent, ih unmarked.2, List.cons_append]

theorem occurrences_unmarked (text rest : List Char) (unmarked : mark ∉ text) :
    occurrences (mark :: tail) (text ++ rest) = occurrences (mark :: tail) rest := by
  induction text with
  | nil => rfl
  | cons c text ih =>
      rw [List.mem_cons, not_or] at unmarked
      rw [List.cons_append, occurrences, ih unmarked.2, List.isPrefixOf_cons_cons, beq_eq_false_iff_ne.mpr unmarked.1]
      exact Nat.zero_add _

-- The mark does not come again, so no piece begins inside another one.
variable (once : mark ∉ tail)
include once

theorem occurrences_here (rest : List Char) :
    occurrences (mark :: tail) (mark :: tail ++ rest) = occurrences (mark :: tail) rest + 1 := by
  rw [List.cons_append, occurrences, begins_here, occurrences_unmarked mark tail tail rest once]
  exact Nat.add_comm 1 _

theorem replace_length (text : List Char) :
    (replaceChars (mark :: tail) filling text).length + occurrences (mark :: tail) text * (mark :: tail).length =
      text.length + occurrences (mark :: tail) text * filling.length := by
  induction text using read_induct mark tail with
  | nil => simp [replaceChars, occurrences]
  | here rest ih =>
      rw [replace_here, occurrences_here mark tail once, List.length_append, List.length_append, Nat.succ_mul,
        Nat.succ_mul]
      omega
  | skip c rest absent ih =>
      have same : occurrences (mark :: tail) (c :: rest) = occurrences (mark :: tail) rest := by
        rw [occurrences, absent]
        exact Nat.zero_add _
      rw [replace_skip _ _ rest c absent, same, List.length_cons, Nat.add_right_comm, ih]
      exact Nat.add_right_comm _ _ _

theorem count_le_occurrences (cells : List (Option Char)) :
    cells.count none ≤ occurrences (mark :: tail) (spread (mark :: tail) cells) := by
  induction cells with
  | nil => exact Nat.le_refl 0
  | cons cell cells ih =>
      cases cell with
      | none =>
          rw [List.count_cons_self, spread_blank, occurrences_here mark tail once]
          exact Nat.succ_le_succ ih
      | some c =>
          rw [List.count_cons_of_ne (Option.some_ne_none c), spread_char, occurrences]
          exact Nat.le_trans ih (Nat.le_add_left _ _)

-- With as many pieces as blanks, every piece is a blank.
theorem replace_blanks (cells : List (Option Char))
    (all : occurrences (mark :: tail) (spread (mark :: tail) cells) = cells.count none) :
    replaceChars (mark :: tail) filling (spread (mark :: tail) cells) = spread filling cells := by
  induction cells with
  | nil => simp [spread, replaceChars]
  | cons cell cells ih =>
      cases cell with
      | none =>
          rw [List.count_cons_self, spread_blank, occurrences_here mark tail once] at all
          rw [spread_blank, replace_here, ih (Nat.succ.inj all), spread_blank]
      | some c =>
          rw [List.count_cons_of_ne (Option.some_ne_none c), spread_char, occurrences] at all
          have least := count_le_occurrences mark tail once cells
          cases begins : (mark :: tail).isPrefixOf (c :: spread (mark :: tail) cells) with
          | true =>
              rw [begins, Bool.toNat_true] at all
              omega
          | false =>
              rw [begins, Bool.toNat_false, Nat.zero_add] at all
              rw [spread_char, replace_skip _ _ _ c begins, ih all, spread_char]

omit once in
-- Unmarked text in front holds no blank, so it is there under every filling.
theorem unmarked_kept (text : List Char) (cells : List (Option Char)) (unmarked : mark ∉ text)
    (front : text <+: spread (mark :: tail) cells) : text <+: spread filling cells := by
  induction cells generalizing text with
  | nil => exact front
  | cons cell cells ih =>
      cases text with
      | nil => exact List.nil_prefix
      | cons first text =>
          rw [List.mem_cons, not_or] at unmarked
          cases cell with
          | none =>
              rw [spread_blank, List.cons_append, List.cons_prefix_cons] at front
              exact absurd front.1.symm unmarked.1
          | some c =>
              rw [spread_char, List.cons_prefix_cons] at front ⊢
              exact ⟨front.1, ih text unmarked.2 front.2⟩

-- Where the lengths do not tell a filled piece from one that was left, the first filled piece beside the blanks does.
theorem same_length_filling (cells : List (Option Char)) (same : filling.length = (mark :: tail).length)
    (filled : replaceChars (mark :: tail) filling (spread (mark :: tail) cells) = spread filling cells) :
    filling = mark :: tail ∨ occurrences (mark :: tail) (spread (mark :: tail) cells) = cells.count none := by
  induction cells with
  | nil => exact Or.inr rfl
  | cons cell cells ih =>
      cases cell with
      | none =>
          rw [spread_blank, replace_here, spread_blank] at filled
          rw [spread_blank, occurrences_here mark tail once, List.count_cons_self, Nat.add_right_cancel_iff]
          exact ih (List.append_cancel_left filled)
      | some c =>
          rw [spread_char] at filled ⊢
          cases begins : (mark :: tail).isPrefixOf (c :: spread (mark :: tail) cells) with
          | false =>
              rw [replace_skip _ _ _ c begins, spread_char, List.cons.injEq] at filled
              rw [occurrences, begins, Bool.toNat_false, Nat.zero_add, List.count_cons_of_ne (Option.some_ne_none c)]
              exact ih filled.2
          | true =>
              obtain ⟨rfl, front⟩ := List.cons_prefix_cons.mp (List.isPrefixOf_iff_prefix.mp begins)
              have piece : mark :: tail <+: spread filling (some mark :: cells) :=
                List.cons_prefix_cons.mpr ⟨rfl, unmarked_kept mark tail filling tail cells once front⟩
              obtain ⟨later, split⟩ := front
              rw [← split, ← List.cons_append, replace_here] at filled
              have start : filling <+: spread filling (some mark :: cells) := ⟨_, filled⟩
              exact Or.inl ((List.prefix_of_prefix_length_le start piece (Nat.le_of_eq same)).eq_of_length same)

theorem replace_spread_iff (cells : List (Option Char)) :
    replaceChars (mark :: tail) filling (spread (mark :: tail) cells) = spread filling cells ↔
      filling = mark :: tail ∨ occurrences (mark :: tail) (spread (mark :: tail) cells) = cells.count none := by
  constructor
  · intro filled
    by_cases same : filling.length = (mark :: tail).length
    · exact same_length_filling mark tail filling once cells same filled
    · have replaced := replace_length mark tail filling once (spread (mark :: tail) cells)
      have before := spread_length (mark :: tail) cells
      have after := spread_length filling cells
      rw [filled] at replaced
      refine Or.inr (counts_equal _ _ _ _ same ?_)
      omega
  · rintro (rfl | all)
    · exact replace_self mark tail _
    · exact replace_blanks mark tail filling once cells all

theorem replace_changes_nothing (text : List Char) :
    replaceChars (mark :: tail) filling text = text ↔ filling = mark :: tail ∨ ¬ mark :: tail <:+: text := by
  have filled := replace_spread_iff mark tail filling once (text.map some)
  rw [spread_chars, spread_chars, count_chars, occurrences_zero _ _ (List.cons_ne_nil mark tail)] at filled
  exact filled

end Marked

end Frontend.Text
