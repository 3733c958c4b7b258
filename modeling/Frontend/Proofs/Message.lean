import Mathlib.Data.List.Basic
import Mathlib.Data.List.Induction
import Frontend.Proofs.Builder.Budget
import Frontend.Proofs.Decimal.Numeral
import Frontend.Proofs.Text.Replace

set_option autoImplicit false

namespace Frontend.Message

inductive Piece where
  | char (c : Char)
  | hole (index : Nat)

def holeAt? (text : List Char) : Option Nat :=
  let index := Decimal.value (text.tail.takeWhile Decimal.isDigit)
  if (hole index).toList.isPrefixOf text then some index else none

-- The template is read once, before any argument is known. Holes of all indices are told from plain characters.
def pieces : List Char → List Piece
  | [] => []
  | c :: rest =>
    match holeAt? (c :: rest) with
    | some index => .hole index :: pieces (rest.drop ((hole index).toList.length - 1))
    | none => .char c :: pieces rest
termination_by text => text.length
decreasing_by
  · simp only [List.length_drop, List.length_cons]; omega
  · simp

def Piece.text (arguments : List String) : Piece → List Char
  | .char c => [c]
  | .hole index => (arguments[index]?.getD (Message.hole index)).toList

def substituted (arguments : List String) (template : List Char) : List Char :=
  (pieces template).flatMap (Piece.text arguments)

def substitute (template : String) (arguments : List String) : String :=
  String.ofList (substituted arguments template.toList)

def holeTail (index : Nat) : List Char :=
  Decimal.digits index ++ ['\x7d']

theorem hole_chars (index : Nat) : (hole index).toList = '\x7b' :: holeTail index := by
  simp [hole, holeTail, Decimal.text]

theorem tail_member (index : Nat) (c : Char) (member : c ∈ holeTail index) : Decimal.isDigit c = true ∨ c = '\x7d' := by
  rcases List.mem_append.mp member with digit | closing
  · exact Or.inl (Decimal.digits_digit index c digit)
  · exact Or.inr (List.mem_singleton.mp closing)

theorem tail_unmarked (index : Nat) : '\x7b' ∉ holeTail index := by
  intro member
  exact absurd (tail_member index _ member) (by decide)

theorem quote_foreign (index : Nat) : '\'' ∉ '\x7b' :: holeTail index := by
  intro member
  rcases List.mem_cons.mp member with opening | member
  · exact absurd opening (by decide)
  · exact absurd (tail_member index _ member) (by decide)

theorem hole_at_hole (index : Nat) (rest : List Char) : holeAt? ((hole index).toList ++ rest) = some index := by
  have numeral : (((hole index).toList ++ rest).tail).takeWhile Decimal.isDigit = Decimal.digits index := by
    rw [hole_chars, holeTail, List.cons_append, List.tail_cons, List.append_assoc,
      List.takeWhile_append_of_pos (Decimal.digits_digit index)]
    simp [Decimal.isDigit]
  have begins : (hole index).toList.isPrefixOf ((hole index).toList ++ rest) = true :=
    List.isPrefixOf_iff_prefix.mpr (List.prefix_append _ _)
  simp only [holeAt?, numeral, Decimal.value_digits, begins, if_pos]

theorem hole_at_iff (text : List Char) (index : Nat) : holeAt? text = some index ↔ (hole index).toList <+: text := by
  constructor
  · intro found
    simp only [holeAt?, Option.ite_none_right_eq_some, Option.some.injEq] at found
    rw [← found.2]
    exact List.isPrefixOf_iff_prefix.mp found.1
  · rintro ⟨rest, rfl⟩
    exact hole_at_hole index rest

theorem holes_apart (a b : Nat) (rest : List Char) (different : a ≠ b) :
    (hole b).toList.isPrefixOf ((hole a).toList ++ rest) = false := by
  cases begins : (hole b).toList.isPrefixOf ((hole a).toList ++ rest) with
  | false => rfl
  | true =>
      have found := (hole_at_iff _ b).mpr (List.isPrefixOf_iff_prefix.mp begins)
      rw [hole_at_hole, Option.some.injEq] at found
      exact absurd found different

theorem pieces_hole (index : Nat) (rest : List Char) :
    pieces ((hole index).toList ++ rest) = .hole index :: pieces rest := by
  have found := hole_at_hole index rest
  have dropped : (holeTail index ++ rest).drop ((hole index).toList.length - 1) = rest := by
    rw [hole_chars, List.length_cons, Nat.add_sub_cancel, List.drop_left]
  rw [hole_chars, List.cons_append] at found ⊢
  rw [pieces, found]
  simp only [dropped]

theorem pieces_char (c : Char) (rest : List Char) (plain : holeAt? (c :: rest) = none) :
    pieces (c :: rest) = .char c :: pieces rest := by
  rw [pieces, plain]

-- A template is read over a whole hole, or over one character at which no hole begins.
theorem template_induct (motive : List Char → Prop) (nil : motive [])
    (hole : ∀ index rest, motive rest → motive ((hole index).toList ++ rest))
    (char : ∀ c rest, holeAt? (c :: rest) = none → motive rest → motive (c :: rest))
    (template : List Char) : motive template := by
  induction template using pieces.induct with
  | case1 => exact nil
  | case2 c rest index found ih =>
      obtain ⟨later, split⟩ := (hole_at_iff _ index).mp found
      rw [← split]
      apply hole
      rw [hole_chars, List.cons_append, List.cons.injEq] at split
      rw [← split.2, hole_chars, List.length_cons, Nat.add_sub_cancel, List.drop_left] at ih
      exact ih
  | case3 c rest plain ih => exact char c rest plain ih

section Substituted

variable (arguments : List String)

theorem substituted_nil : substituted arguments [] = [] := by
  rw [substituted, pieces, List.flatMap_nil]

theorem substituted_hole (index : Nat) (rest : List Char) :
    substituted arguments ((hole index).toList ++ rest) =
      (arguments[index]?.getD (hole index)).toList ++ substituted arguments rest := by
  rw [substituted, pieces_hole, List.flatMap_cons]
  rfl

theorem substituted_char (c : Char) (rest : List Char) (plain : holeAt? (c :: rest) = none) :
    substituted arguments (c :: rest) = c :: substituted arguments rest := by
  rw [substituted, pieces_char c rest plain, List.flatMap_cons]
  rfl

theorem substituted_unmarked (text rest : List Char) (unmarked : '\x7b' ∉ text) :
    substituted arguments (text ++ rest) = text ++ substituted arguments rest := by
  induction text with
  | nil => rfl
  | cons c text ih =>
      rw [List.mem_cons, not_or] at unmarked
      have plain : holeAt? (c :: (text ++ rest)) = none := by
        rw [Option.eq_none_iff_forall_ne_some]
        intro index found
        have begins := (hole_at_iff _ index).mp found
        rw [hole_chars, List.cons_prefix_cons] at begins
        exact unmarked.1 begins.1
      rw [List.cons_append, substituted_char arguments c _ plain, ih unmarked.2, List.cons_append]

theorem substitute_chars (template : String) :
    (substitute template arguments).toList = substituted arguments template.toList :=
  String.toList_ofList

end Substituted

theorem substitute_nothing (template : String) : substitute template [] = template := by
  rw [← String.toList_inj, substitute_chars]
  induction template.toList using template_induct with
  | nil => exact substituted_nil []
  | hole index rest ih =>
      rw [substituted_hole, ih]
      rfl
  | char c rest plain ih => rw [substituted_char [] c rest plain, ih]

-- One more argument. The holes of its index are the blanks, everything else is text.
section Next

variable (front : List String)

def Piece.cells : Piece → List (Option Char)
  | .char c => [some c]
  | .hole index => if index = front.length then [none] else ((Piece.hole index).text front).map some

def cells (template : List Char) : List (Option Char) :=
  (pieces template).flatMap (Piece.cells front)

theorem piece_before (piece : Piece) :
    Text.spread (hole front.length).toList (piece.cells front) = piece.text front := by
  cases piece with
  | char c => rfl
  | hole index =>
      rw [Piece.cells]
      by_cases next : index = front.length
      · rw [if_pos next, next, Piece.text, List.getElem?_eq_none (Nat.le_refl _), Option.getD_none]
        exact List.append_nil _
      · rw [if_neg next, Text.spread_chars]

theorem piece_after (argument : String) (piece : Piece) :
    Text.spread argument.toList (piece.cells front) = piece.text (front ++ [argument]) := by
  cases piece with
  | char c => rfl
  | hole index =>
      rw [Piece.cells]
      by_cases next : index = front.length
      · rw [if_pos next, next, Piece.text, List.getElem?_concat_length, Option.getD_some]
        exact List.append_nil _
      · have other : (front ++ [argument])[index]? = front[index]? := by
          simp only [List.getElem?_append]
          grind
        rw [if_neg next, Text.spread_chars, Piece.text, Piece.text, other]

theorem cells_before (template : List Char) :
    Text.spread (hole front.length).toList (cells front template) = substituted front template := by
  rw [Text.spread, cells, List.flatMap_assoc]
  exact List.flatMap_congr fun piece _ => piece_before front piece

theorem cells_after (argument : String) (template : List Char) :
    Text.spread argument.toList (cells front template) = substituted (front ++ [argument]) template := by
  rw [Text.spread, cells, List.flatMap_assoc]
  exact List.flatMap_congr fun piece _ => piece_after front argument piece

theorem occurrences_other (index other : Nat) (rest : List Char) (different : other ≠ index) :
    Text.occurrences (hole index).toList ((hole other).toList ++ rest) = Text.occurrences (hole index).toList rest := by
  have begins := holes_apart other index rest different
  rw [hole_chars other, List.cons_append] at begins ⊢
  rw [Text.occurrences, begins, hole_chars index, Text.occurrences_unmarked _ _ _ _ (tail_unmarked other)]
  exact Nat.zero_add _

theorem cells_blank (template : List Char) :
    (cells front template).count none = Text.occurrences (hole front.length).toList template := by
  induction template using template_induct with
  | nil =>
      rw [cells, pieces]
      rfl
  | hole index rest ih =>
      rw [cells, pieces_hole, List.flatMap_cons, List.count_append, ← cells, ih, Piece.cells]
      by_cases next : index = front.length
      · rw [if_pos next, next, hole_chars, Text.occurrences_here _ _ (tail_unmarked _)]
        exact Nat.add_comm 1 _
      · rw [if_neg next, Text.count_chars, occurrences_other front.length index rest next]
        exact Nat.zero_add _
  | char c rest plain ih =>
      have begins : (hole front.length).toList.isPrefixOf (c :: rest) = false := by
        rw [Bool.eq_false_iff, Ne, List.isPrefixOf_iff_prefix, ← hole_at_iff, plain]
        exact (Option.some_ne_none front.length).symm
      rw [cells, pieces_char c rest plain, List.flatMap_cons, List.count_append, ← cells, ih, Text.occurrences, begins]
      rfl

theorem fill_next (template : String) (argument : String) :
    fill template (front ++ [argument]) = Text.replace (hole front.length) argument (fill template front) := by
  simp [fill, List.zipIdx_append]

end Next

-- The arguments so far have spelled a hole of the next index, alone or with the text around them.
def HoleArises (template : String) (front : List String) : Prop :=
  Text.occurrences (hole front.length).toList template.toList <
    Text.occurrences (hole front.length).toList (substitute template front).toList

theorem no_hole_arises (template : String) (front : List String) :
    ¬ HoleArises template front ↔ Text.occurrences (hole front.length).toList (substitute template front).toList =
      Text.occurrences (hole front.length).toList template.toList := by
  have least := Text.count_le_occurrences _ _ (tail_unmarked front.length) (cells front template.toList)
  rw [← hole_chars, cells_before, cells_blank, ← substitute_chars] at least
  unfold HoleArises
  omega

theorem fill_next_agrees (template : String) (front : List String) (argument : String)
    (agreed : fill template front = substitute template front) :
    fill template (front ++ [argument]) = substitute template (front ++ [argument]) ↔
      argument = hole front.length ∨ ¬ HoleArises template front := by
  have exactly := Text.replace_spread_iff _ _ argument.toList (tail_unmarked front.length) (cells front template.toList)
  rw [← hole_chars, cells_before, cells_after, cells_blank, String.toList_inj] at exactly
  rw [no_hole_arises, fill_next, agreed, ← String.toList_inj, Text.replace, String.toList_ofList, substitute_chars,
    substitute_chars]
  exact exactly

theorem no_hole_at_first (template : String) : ¬ HoleArises template [] := by
  rw [HoleArises, substitute_nothing]
  exact Nat.lt_irrefl _

theorem fill_nothing (template : String) : fill template [] = substitute template [] :=
  (substitute_nothing template).symm

theorem fill_single (template argument : String) : fill template [argument] = substitute template [argument] :=
  (fill_next_agrees template [] argument (fill_nothing template)).mpr (Or.inr (no_hole_at_first template))

theorem fill_agrees_iff (template : String) (arguments : List String) :
    (∀ front, front <+: arguments → fill template front = substitute template front) ↔
      ∀ front argument, front ++ [argument] <+: arguments →
        argument = hole front.length ∨ ¬ HoleArises template front := by
  constructor
  · intro agree front argument given
    have agreed := agree front ((List.prefix_append front [argument]).trans given)
    exact (fill_next_agrees template front argument agreed).mp (agree _ given)
  · intro harmless front given
    induction front using List.reverseRecOn with
    | nil => exact fill_nothing template
    | append_singleton front argument ih =>
        have agreed := ih ((List.prefix_append front [argument]).trans given)
        exact (fill_next_agrees template front argument agreed).mpr (harmless front argument given)

section Operator

variable (operator : String)

theorem rejected_operator (error : LabelError) (rejected : Label.ofText operator = .error error) :
    error = .tooLong operator := by
  rcases Production.label_cases operator with ⟨-, refused⟩ | ⟨-, label, accepted⟩
  · rw [refused, Except.error.injEq] at rejected
    exact rejected.symm
  · rw [accepted] at rejected
    cases rejected

theorem capacity_text : Decimal.text Label.capacity = "2" := by
  rw [Decimal.text, Decimal.digits_small _ (by decide)]
  rfl

theorem operator_named : (substitute operatorTooLong.template [operator]).toList =
    "Operator '".toList ++ (operator.toList ++
      ("' is longer than ".toList ++ ((hole 1).toList ++ " bytes.".toList))) := by
  have template : operatorTooLong.template.toList =
      "Operator '".toList ++ ((hole 0).toList ++
        ("' is longer than ".toList ++ ((hole 1).toList ++ (" bytes.".toList ++ [])))) := by
    simp only [operatorTooLong, String.toList_append, List.append_assoc, List.append_nil]
  rw [substitute_chars, template, substituted_unmarked _ _ _ (by decide), substituted_hole,
    substituted_unmarked _ _ _ (by decide), substituted_hole, substituted_unmarked _ _ _ (by decide), substituted_nil,
    List.append_nil]
  rfl

-- The quotes around the operator are in no hole, so what is spelled inside it stays inside.
theorem operator_text : (BuildError.invalidOperator (.tooLong operator)).diagnostic.text =
    "Operator '" ++ Text.replace (hole 1) "2" operator ++ "' is longer than 2 bytes." := by
  have filled : (BuildError.invalidOperator (.tooLong operator)).diagnostic.text =
      Text.replace (hole 1) "2" (substitute operatorTooLong.template [operator]) := by
    rw [← fill_single, ← capacity_text]
    exact fill_next [operator] operatorTooLong.template (Decimal.text Label.capacity)
  have behind : Text.replaceChars (hole 1).toList "2".toList
      ("' is longer than ".toList ++ ((hole 1).toList ++ " bytes.".toList)) = "' is longer than 2 bytes.".toList := by
    rw [hole_chars, Text.replace_unmarked _ _ _ _ _ (by decide), Text.replace_here,
      ← List.append_nil " bytes.".toList, Text.replace_unmarked _ _ _ _ _ (by decide), Text.replaceChars]
    rfl
  have inside : Text.replaceChars (hole 1).toList "2".toList
      (operator.toList ++ ("' is longer than ".toList ++ ((hole 1).toList ++ " bytes.".toList))) =
      Text.replaceChars (hole 1).toList "2".toList operator.toList ++ "' is longer than 2 bytes.".toList := by
    rw [← behind, hole_chars]
    exact Text.replace_apart _ _ _ _ _ '\'' (quote_foreign 1)
  have before : '\x7b' ∉ "Operator '".toList := by decide
  rw [filled, ← String.toList_inj, Text.replace, String.toList_ofList, operator_named, hole_chars,
    Text.replace_unmarked _ _ _ _ _ before, ← hole_chars, inside]
  simp only [Text.replace, String.toList_append, String.toList_ofList, List.append_assoc]

theorem operator_kept_iff :
    (BuildError.invalidOperator (.tooLong operator)).diagnostic.text =
      "Operator '" ++ operator ++ "' is longer than 2 bytes." ↔ ¬ (hole 1).toList <:+: operator.toList := by
  have different : "2".toList ≠ (hole 1).toList := by
    rw [hole_chars]
    simp
  have unchanged := Text.replace_changes_nothing _ _ "2".toList (tail_unmarked 1) operator.toList
  rw [← hole_chars, or_iff_right different] at unchanged
  rw [operator_text, ← unchanged, String.append_left_inj, String.append_right_inj, ← String.toList_inj, Text.replace,
    String.toList_ofList]

end Operator

-- Every front of the arguments is compared, since an argument can bring back what an earlier one has spoiled.
theorem fill_simultaneous_unless_hole_arises (template : String) (arguments : List String) (operator : String)
    (error : LabelError) (rejected : Label.ofText operator = .error error) :
    ((∀ front, front <+: arguments → fill template front = substitute template front) ↔
      ∀ front argument, front ++ [argument] <+: arguments →
        argument = hole front.length ∨ ¬ HoleArises template front) ∧
    (∀ only, fill template [only] = substitute template [only]) ∧
    (∀ first second, fill template [first, second] = substitute template [first, second] ↔
      second = hole 1 ∨ ¬ HoleArises template [first]) ∧
    error.message = "operator '" ++ operator ++ "' is longer than 2 bytes" ∧
    (BuildError.invalidOperator error).diagnostic.text =
      "Operator '" ++ Text.replace (hole 1) "2" operator ++ "' is longer than 2 bytes." ∧
    ((BuildError.invalidOperator error).diagnostic.text = "Operator '" ++ operator ++ "' is longer than 2 bytes." ↔
      ¬ (hole 1).toList <:+: operator.toList) := by
  have shown := rejected_operator operator error rejected
  rw [shown]
  refine ⟨fill_agrees_iff template arguments, fill_single template, ?_, ?_, operator_text operator,
    operator_kept_iff operator⟩
  · intro first second
    exact fill_next_agrees template [first] second (fill_single template first)
  · have ending : "' is longer than " ++ ("2" ++ " bytes") = "' is longer than 2 bytes" := by decide
    rw [LabelError.message, capacity_text, String.append_assoc, String.append_assoc, ending]

theorem hole_small (index : Nat) (small : index < 10) :
    hole index = String.ofList ['\x7b', Decimal.digitChar index, '\x7d'] := by
  rw [← String.toList_inj, hole_chars, holeTail, Decimal.digits_small index small, String.toList_ofList]
  rfl

theorem replace_hole (index : Nat) (argument : String) : Text.replace (hole index) argument (hole index) = argument := by
  have filled := Text.replace_here '\x7b' (holeTail index) argument.toList []
  rw [List.append_nil, ← hole_chars, Text.replaceChars.eq_1, List.append_nil] at filled
  rw [Text.replace, filled, String.ofList_toList]

theorem fill_simultaneous_unless_hole_arises_spelled :
    hole 0 = "\x7b0\x7d" ∧ hole 1 = "\x7b1\x7d" ∧ Label.ofText (hole 1) = .error (.tooLong (hole 1)) ∧
    (BuildError.invalidOperator (.tooLong (hole 1))).diagnostic.text = "Operator '2' is longer than 2 bytes." ∧
    fill (hole 0) [hole 1, "z"] = "z" ∧ substitute (hole 0) [hole 1, "z"] = hole 1 := by
  have zero : hole 0 = "\x7b0\x7d" := hole_small 0 (by decide)
  have one : hole 1 = "\x7b1\x7d" := hole_small 1 (by decide)
  have rejected : Label.ofText (hole 1) = .error (.tooLong (hole 1)) := by
    rw [one]
    decide
  obtain ⟨-, -, -, -, text, -⟩ :=
    fill_simultaneous_unless_hole_arises (hole 0) [hole 1, "z"] (hole 1) _ rejected
  refine ⟨zero, one, rejected, ?_, ?_, ?_⟩
  · rw [text, replace_hole]
    decide
  · calc
      fill (hole 0) [hole 1, "z"] = Text.replace (hole 1) "z" (Text.replace (hole 0) (hole 1) (hole 0)) := rfl
      _ = "z" := by rw [replace_hole, replace_hole]
  · rw [substitute, ← List.append_nil (hole 0).toList, substituted_hole, substituted_nil, List.append_nil]
    exact String.ofList_toList

end Frontend.Message
