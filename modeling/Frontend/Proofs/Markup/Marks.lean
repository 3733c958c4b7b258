import Mathlib.Data.List.Basic
import Frontend.Markup.Basic
import Frontend.Proofs.Page

set_option autoImplicit false

namespace Frontend.Markup

theorem escape_char_plain (c : Char) (plain : needsEscape c = false) : escapeChar c = [c] := by
  simp only [needsEscape, Bool.or_eq_false_iff, beq_eq_false_iff_ne, decide_eq_false_iff_not] at plain
  obtain ⟨⟨⟨⟨⟨⟨⟨amp, lt⟩, gt⟩, quot⟩, apos⟩, control⟩, low⟩, high⟩ := plain
  have tab : c ≠ '\t' := fun same => control (by simp [same])
  have feed : c ≠ '\n' := fun same => control (by simp [same])
  have ret : c ≠ '\r' := fun same => control (by simp [same])
  have allowed : isForbidden c = false := by simp [isForbidden, control, low, high]
  simp [escapeChar, amp, lt, gt, quot, apos, tab, feed, ret, allowed]

theorem escape_chars (text : String) : (escape text).toList = text.toList.flatMap escapeChar := by
  unfold escape
  cases special : text.toList.any needsEscape with
  | true => rw [if_pos rfl, String.toList_ofList]
  | false =>
      rw [if_neg (by simp)]
      have plain : ∀ c ∈ text.toList, escapeChar c = [c] := by
        intro c member
        apply escape_char_plain
        simpa using List.any_eq_false.mp special c member
      rw [List.flatMap_congr plain]
      simp

def references : List (List Char) :=
  [['&', 'a', 'm', 'p', ';'], ['&', 'l', 't', ';'], ['&', 'g', 't', ';'], ['&', 'q', 'u', 'o', 't', ';'],
    ['&', 'a', 'p', 'o', 's', ';'], ['&', '#', '9', ';'], ['&', '#', '1', '0', ';'], ['&', '#', '1', '3', ';']]

theorem escape_char_cases (c : Char) :
    escapeChar c ∈ references ∨ escapeChar c = [replacement] ∨ needsEscape c = false ∧ escapeChar c = [c] := by
  cases special : needsEscape c with
  | false => exact Or.inr (Or.inr ⟨rfl, escape_char_plain c special⟩)
  | true =>
      unfold escapeChar
      iterate 8
        split
        · exact Or.inl (by decide)
      split
      · exact Or.inr (Or.inl rfl)
      · simp_all [needsEscape, isForbidden]

theorem escape_char_hides (c shown : Char) (member : shown ∈ escapeChar c) :
    shown ≠ '<' ∧ shown ≠ '>' ∧ shown ≠ '"' ∧ shown ≠ '\x27' := by
  have inReferences : ∀ text ∈ references, ∀ c ∈ text, c ≠ '<' ∧ c ≠ '>' ∧ c ≠ '"' ∧ c ≠ '\x27' := by
    simp [references]
  rcases escape_char_cases c with reference | replaced | ⟨plain, same⟩
  · exact inReferences _ reference shown member
  · rw [replaced, List.mem_singleton] at member
    rw [member]
    decide
  · rw [same, List.mem_singleton] at member
    rw [member]
    simp only [needsEscape, Bool.or_eq_false_iff, beq_eq_false_iff_ne] at plain
    obtain ⟨⟨⟨⟨⟨⟨⟨_, lt⟩, gt⟩, quot⟩, apos⟩, _⟩, _⟩, _⟩ := plain
    exact ⟨lt, gt, quot, apos⟩

theorem escape_hides (text : String) (shown : Char) (member : shown ∈ (escape text).toList) :
    shown ≠ '<' ∧ shown ≠ '>' ∧ shown ≠ '"' ∧ shown ≠ '\x27' := by
  rw [escape_chars, List.mem_flatMap] at member
  obtain ⟨c, _, here⟩ := member
  exact escape_char_hides c shown here

def nodeTypes : List String :=
  ["binary_op", "stmt_list", "UNOP", "INPUT", "OUTPUT", "IF", "CONDITION", "IF_TRUE", "IF_FALSE", "LOOP", "LOOP_BODY", "FUNC"]

def valueNames : List String :=
  ["OP", "VARIABLE", "JUMP", "INT", "DOUBLE", "STRING", "BOOL", "INT ARRAY", "BOOL ARRAY"]

def Mark.Proper : Mark → Prop
  | .opening tag => tag ∈ nodeTypes
  | .closing => True
  | .value name _ => name ∈ valueNames
  | .returned => True

-- A mark with what a reader of the text can see of it.
def Mark.shown : Mark → Mark
  | .opening tag => .opening tag
  | .closing => .closing
  | .value name text => .value name (escape text)
  | .returned => .returned

def typeOpen : List Char := ['n', 'o', 'd', 'e', ' ', 't', 'y', 'p', 'e', '=', '"']

def nameOpen : List Char := ['v', 'a', 'l', 'u', 'e', ' ', 'n', 'a', 'm', 'e', '=', '"']

def nodeClose : List Char := ['/', 'n', 'o', 'd', 'e']

def valueClose : List Char := ['/', 'v', 'a', 'l', 'u', 'e', '>']

-- The text of a mark is its first tag, here without the angle brackets, and what follows that tag.
def Mark.tag : Mark → List Char
  | .opening tag => typeOpen ++ (tag.toList ++ ['"'])
  | .closing => nodeClose
  | .value name _ => nameOpen ++ (name.toList ++ ['"'])
  | .returned => typeOpen ++ ("RETURN".toList ++ ['"'])

def Mark.content : Mark → List Char
  | .opening _ => []
  | .closing => []
  | .value _ text => (escape text).toList ++ '<' :: valueClose
  | .returned => '<' :: (nodeClose ++ ['>'])

theorem mark_text (mark : Mark) : mark.text.toList = '<' :: (mark.tag ++ '>' :: mark.content) := by
  cases mark with
  | opening tag =>
      have before : "<node type=\"".toList = '<' :: typeOpen := by decide
      have behind : "\">".toList = ['"', '>'] := by decide
      delta Mark.text
      simp [Mark.tag, Mark.content, String.toList_append, before, behind]
  | closing => decide
  | value name text =>
      have before : "<value name=\"".toList = '<' :: nameOpen := by decide
      have between : "\">".toList = ['"', '>'] := by decide
      have behind : "</value>".toList = '<' :: valueClose := by decide
      delta Mark.text
      simp [Mark.tag, Mark.content, String.toList_append, before, between, behind]
  | returned => decide

theorem names_hide_closing (name : String) (known : name ∈ nodeTypes ∨ name ∈ valueNames) : '>' ∉ name.toList := by
  have fixed : ∀ known ∈ nodeTypes ++ valueNames, '>' ∉ known.toList := by decide
  exact fixed name (List.mem_append.mpr known)

theorem tag_hides_closing (mark : Mark) (proper : mark.Proper) : '>' ∉ mark.tag := by
  cases mark with
  | opening tag =>
      have clean := names_hide_closing tag (Or.inl proper)
      simp [Mark.tag, typeOpen, clean]
  | closing => decide
  | value name text =>
      have clean := names_hide_closing name (Or.inr proper)
      simp [Mark.tag, nameOpen, clean]
  | returned => decide

theorem quoted_unique (start : List Char) (a b : String)
    (equal : start ++ (a.toList ++ ['"']) = start ++ (b.toList ++ ['"'])) : a = b :=
  String.toList_inj.mp (List.append_cancel_right (List.append_cancel_left equal))

-- No mark is the beginning of another one, whatever follows. An opening mark that said RETURN would be
-- the beginning of a return.
theorem mark_unique (a b : Mark) (left right : List Char) (proper : a.Proper) (properToo : b.Proper)
    (equal : a.text.toList ++ left = b.text.toList ++ right) : a.shown = b.shown ∧ left = right := by
  rw [mark_text, mark_text] at equal
  simp only [List.cons_append, List.append_assoc, List.cons.injEq, true_and] at equal
  obtain ⟨tags, after⟩ := delimited_unique '>' a.tag b.tag _ _ (tag_hides_closing a proper) (tag_hides_closing b properToo) equal
  have noReturn : "RETURN" ∉ nodeTypes := by decide
  cases a with
  | opening tag =>
      cases b with
      | opening other =>
          have same := quoted_unique typeOpen tag other tags
          exact ⟨by rw [same], after⟩
      | closing => cases tags
      | value name text => cases tags
      | returned => exact absurd (quoted_unique typeOpen tag "RETURN" tags ▸ proper) noReturn
  | closing =>
      cases b with
      | opening other => cases tags
      | closing => exact ⟨rfl, after⟩
      | value name text => cases tags
      | returned => cases tags
  | value name text =>
      cases b with
      | opening other => cases tags
      | closing => cases tags
      | value other more =>
          have same := quoted_unique nameOpen name other tags
          simp only [Mark.content, List.append_assoc] at after
          obtain ⟨texts, rest⟩ := delimited_unique '<' (escape text).toList (escape more).toList
            (valueClose ++ left) (valueClose ++ right) (fun member => (escape_hides text _ member).1 rfl)
            (fun member => (escape_hides more _ member).1 rfl) after
          refine ⟨?_, List.append_cancel_left rest⟩
          rw [Mark.shown, Mark.shown, same, String.toList_inj.mp texts]
      | returned => cases tags
  | returned =>
      cases b with
      | opening other => exact absurd (quoted_unique typeOpen "RETURN" other tags ▸ properToo) noReturn
      | closing => cases tags
      | value name text => cases tags
      | returned => exact ⟨rfl, List.append_cancel_left after⟩

def AllProper (elements : List Element) : Prop :=
  ∀ element ∈ elements, element.mark.Proper

theorem proper_opening (level : Nat) (tag : String) (rest : List Element) (known : tag ∈ nodeTypes) (proper : AllProper rest) :
    AllProper (⟨level, .opening tag⟩ :: rest) :=
  List.forall_mem_cons.mpr ⟨known, proper⟩

theorem proper_closing (level : Nat) (rest : List Element) (proper : AllProper rest) : AllProper (⟨level, .closing⟩ :: rest) :=
  List.forall_mem_cons.mpr ⟨trivial, proper⟩

theorem proper_value (level : Nat) (name text : String) (rest : List Element) (known : name ∈ valueNames)
    (proper : AllProper rest) : AllProper (⟨level, .value name text⟩ :: rest) :=
  List.forall_mem_cons.mpr ⟨known, proper⟩

theorem literal_name_known (value : Literal) : literalName value ∈ valueNames := by
  cases value <;> simp [literalName, valueNames]

section Parts

variable (table : SymbolTable) (part : Option Tree) (level : Nat) (rest : List Element)
variable (inside : ∀ tree, part = some tree → ∀ level rest, AllProper rest → AllProper (prepend table level tree rest))
include inside

theorem section_proper (tag : String) (known : tag ∈ nodeTypes) (proper : AllProper rest) :
    AllProper (prependSection table level tag part rest) := by
  cases part with
  | none => exact proper
  | some tree => exact proper_opening _ _ _ known (inside tree rfl _ _ (proper_closing _ _ proper))

theorem body_proper (proper : AllProper rest) : AllProper (prependBody table level part rest) := by
  cases part with
  | none => exact proper
  | some tree => exact inside tree rfl _ _ proper

end Parts

theorem prepend_proper (table : SymbolTable) (tree : Tree) (level : Nat) (rest : List Element) (proper : AllProper rest) :
    AllProper (prepend table level tree rest) := by
  induction tree generalizing level rest with
  | binary kind op type left right ihLeft ihRight =>
      have inside := ihLeft (level + 1) _ (ihRight (level + 1) _ (proper_closing level rest proper))
      cases kind with
      | op => exact proper_opening _ _ _ (by decide) (proper_value _ _ _ _ (by decide) inside)
      | list => exact proper_opening _ _ _ (by decide) inside
  | unary kind op type operand ih =>
      have inside := ih (level + 1) _ (proper_closing level rest proper)
      cases kind with
      | op => exact proper_opening _ _ _ (by decide) (proper_value _ _ _ _ (by decide) inside)
      | input => exact proper_opening _ _ _ (by decide) inside
      | output => exact proper_opening _ _ _ (by decide) inside
  | literal value => exact proper_value _ _ _ _ (literal_name_known value) proper
  | reference type symbol => exact proper_value _ _ _ _ (by decide) proper
  | assignment target value ih =>
      exact proper_value _ _ _ _ (by decide) (proper_value _ _ _ _ (by decide) (ih level rest proper))
  | flow kind condition thenBranch elseBranch ihCondition ihThen ihElse =>
      have closed := proper_closing level rest proper
      cases kind with
      | branch =>
          have elsePart := section_proper table elseBranch (level + 1) _ ihElse "IF_FALSE" (by decide) closed
          have thenPart := section_proper table thenBranch (level + 1) _ ihThen "IF_TRUE" (by decide) elsePart
          exact proper_opening _ _ _ (by decide) (section_proper table condition _ _ ihCondition _ (by decide) thenPart)
      | loop =>
          have bodyPart := section_proper table thenBranch (level + 1) _ ihThen "LOOP_BODY" (by decide) closed
          exact proper_opening _ _ _ (by decide) (section_proper table condition _ _ ihCondition _ (by decide) bodyPart)
      | function => exact proper_opening _ _ _ (by decide) (body_proper table thenBranch _ _ ihThen closed)
  | jump => exact proper_value _ _ _ _ (by decide) proper
  | ret => exact List.forall_mem_cons.mpr ⟨trivial, proper⟩

def isBlank (c : Char) : Bool :=
  c == ' ' || c == '\t' || c == '\n' || c == '\r'

-- What stands between two marks is blank under every layout like this.
def BlankLines (layout : Layout) : Prop :=
  ∀ c ∈ layout.newLine.toList, isBlank c = true

def pageText (layout : Layout) (elements : List Element) : List Char :=
  (Page.render layout (elements.map Element.line)).toList

theorem page_text_cons (layout : Layout) (element : Element) (rest : List Element) :
    pageText layout (element :: rest) = List.replicate (element.level * layout.indentWidth) ' '
      ++ (element.mark.text.toList ++ (layout.newLine.toList ++ pageText layout rest)) :=
  page_cons layout element.line (rest.map Element.line)

theorem drop_indent (layout : Layout) (element : Element) (rest : List Element) :
    (pageText layout (element :: rest)).dropWhile isBlank
      = element.mark.text.toList ++ (layout.newLine.toList ++ pageText layout rest) := by
  have indent : ∀ c ∈ List.replicate (element.level * layout.indentWidth) ' ', isBlank c = true := by
    intro c member
    rw [List.eq_of_mem_replicate member]
    rfl
  rw [page_text_cons, List.dropWhile_append_of_pos indent, mark_text]
  rfl

def seen (elements : List Element) : List Mark :=
  elements.map fun element => element.mark.shown

-- Blanks are dropped in front of each mark, so that neither the indent nor the end of the line before matters.
theorem seen_of_text (layout layout' : Layout) (blank : BlankLines layout) (blank' : BlankLines layout')
    (a b : List Element) (proper : AllProper a) (properToo : AllProper b)
    (equal : (pageText layout a).dropWhile isBlank = (pageText layout' b).dropWhile isBlank) : seen a = seen b := by
  induction a generalizing b with
  | nil =>
      cases b with
      | nil => rfl
      | cons other more =>
          rw [drop_indent, mark_text] at equal
          cases equal
  | cons element rest ih =>
      cases b with
      | nil =>
          rw [drop_indent, mark_text] at equal
          cases equal
      | cons other more =>
          obtain ⟨first, others⟩ := List.forall_mem_cons.mp proper
          obtain ⟨firstToo, othersToo⟩ := List.forall_mem_cons.mp properToo
          rw [drop_indent, drop_indent] at equal
          obtain ⟨shown, after⟩ := mark_unique _ _ _ _ first firstToo equal
          have remaining := congrArg (List.dropWhile isBlank) after
          rw [List.dropWhile_append_of_pos blank, List.dropWhile_append_of_pos blank'] at remaining
          rw [seen, seen, List.map_cons, List.map_cons, shown]
          exact congrArg _ (ih more others othersToo remaining)

end Frontend.Markup
