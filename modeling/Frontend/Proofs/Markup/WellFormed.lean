import Frontend.Proofs.Markup.Marks

set_option autoImplicit false

namespace Frontend.Markup

-- A line as it stands on the page: the text of a value is taken as it is, without any escape.
def Mark.verbatim : Mark → String
  | .opening type => "<node type=\"" ++ type ++ "\">"
  | .closing => "</node>"
  | .value name text => "<value name=\"" ++ name ++ "\">" ++ text ++ "</value>"
  | .returned => "<node type=\"RETURN\"></node>"

def verbatimLine (layout : Layout) (row : Element) : String :=
  String.ofList (List.replicate (layout.indentWidth * row.level) ' ') ++ row.mark.verbatim ++ layout.newLine

-- Elements side by side at one depth. A closing line stands at the depth of the line that it closes.
inductive Nests : Nat → List Element → Prop where
  | nil (depth : Nat) : Nests depth []
  | value (depth : Nat) (name text : String) (rest : List Element) (beside : Nests depth rest) :
      Nests depth (⟨depth, .value name text⟩ :: rest)
  | returned (depth : Nat) (rest : List Element) (beside : Nests depth rest) : Nests depth (⟨depth, .returned⟩ :: rest)
  | node (depth : Nat) (type : String) (inner rest : List Element) (inside : Nests (depth + 1) inner)
      (beside : Nests depth rest) : Nests depth (⟨depth, .opening type⟩ :: (inner ++ ⟨depth, .closing⟩ :: rest))

def Mark.isOpening : Mark → Bool
  | .opening _ => true
  | _ => false

def Mark.isClosing : Mark → Bool
  | .closing => true
  | _ => false

def opened (rows : List Element) : Nat := rows.countP fun row => row.mark.isOpening

def closed (rows : List Element) : Nat := rows.countP fun row => row.mark.isClosing

-- The characters that a document of markup may contain.
def isLegal (c : Char) : Bool :=
  c == '\t' || c == '\n' || c == '\r' || (decide (0x20 ≤ c.toNat) && decide (c.toNat ≤ 0xd7ff))
    || (decide (0xe000 ≤ c.toNat) && decide (c.toNat ≤ 0xfffd))
    || (decide (0x10000 ≤ c.toNat) && decide (c.toNat ≤ 0x10ffff))

structure Clean (text : List Char) : Prop where
  legal : ∀ c ∈ text, isLegal c = true
  contained : ∀ c ∈ text, c ≠ '<' ∧ c ≠ '>' ∧ c ≠ '"' ∧ c ≠ '\x27'
  ampersands : ∀ before after, text = before ++ '&' :: after → ∃ reference ∈ references, reference <+: '&' :: after

structure WellFormed (layout : Layout) (text : String) (rows : List Element) : Prop where
  lines : text = String.join (rows.map (verbatimLine layout))
  known : ∀ row ∈ rows, row.mark.Proper
  nested : Nests 0 rows
  balanced : opened rows = closed rows
  neverMore : ∀ front, front <+: rows → closed front ≤ opened front
  standing : ∀ before row after, rows = before ++ row :: after → row.level + closed (before ++ [row]) = opened before
  clean : ∀ level name text, ⟨level, .value name text⟩ ∈ rows → Clean text.toList
  legal : ∀ c ∈ text.toList, isLegal c = true

theorem nests_append (depth : Nat) (a b : List Element) (left : Nests depth a) (right : Nests depth b) :
    Nests depth (a ++ b) := by
  induction left with
  | nil depth => exact right
  | value depth name text rest _ ih => exact .value depth name text _ (ih right)
  | returned depth rest _ ih => exact .returned depth _ (ih right)
  | node depth type inner rest inside _ _ ih =>
      have joined := Nests.node depth type inner _ inside (ih right)
      simpa using joined

section Counts

@[simp] theorem opened_nil : opened [] = 0 := rfl

@[simp] theorem closed_nil : closed [] = 0 := rfl

@[simp] theorem opened_cons (row : Element) (rows : List Element) :
    opened (row :: rows) = opened rows + row.mark.isOpening.toNat := by
  cases here : row.mark.isOpening <;> simp [opened, here]

@[simp] theorem closed_cons (row : Element) (rows : List Element) :
    closed (row :: rows) = closed rows + row.mark.isClosing.toNat := by
  cases here : row.mark.isClosing <;> simp [closed, here]

@[simp] theorem opened_append (a b : List Element) : opened (a ++ b) = opened a + opened b := List.countP_append

@[simp] theorem closed_append (a b : List Element) : closed (a ++ b) = closed a + closed b := List.countP_append

end Counts

theorem nests_balanced (depth : Nat) (rows : List Element) (nests : Nests depth rows) : opened rows = closed rows := by
  induction nests with
  | nil depth => rfl
  | value depth name text rest _ ih => simp [Mark.isOpening, Mark.isClosing, ih]
  | returned depth rest _ ih => simp [Mark.isOpening, Mark.isClosing, ih]
  | node depth type inner rest _ _ ihInner ihRest =>
      simp only [opened_cons, closed_cons, opened_append, closed_append, Mark.isOpening, Mark.isClosing, ihInner, ihRest,
        Bool.toNat_true, Bool.toNat_false]
      omega

-- Behind `depth` elements that are open already.
def Stands (depth : Nat) (rows : List Element) : Prop :=
  ∀ before row after, rows = before ++ row :: after → row.level + closed (before ++ [row]) = depth + opened before

theorem stands_cons (depth inside : Nat) (row : Element) (rows : List Element)
    (here : row.level + row.mark.isClosing.toNat = depth)
    (deeper : inside + row.mark.isClosing.toNat = depth + row.mark.isOpening.toNat) (behind : Stands inside rows) :
    Stands depth (row :: rows) := by
  intro before other after split
  cases before with
  | nil =>
      obtain ⟨same, _⟩ := List.cons.inj split
      subst same
      simpa using here
  | cons first before =>
      obtain ⟨same, rest⟩ := List.cons.inj split
      subst same
      have later := behind before other after rest
      simp only [List.cons_append, closed_cons, opened_cons] at later ⊢
      omega

theorem nests_stands (depth : Nat) (rows rest : List Element) (nests : Nests depth rows) (behind : Stands depth rest) :
    Stands depth (rows ++ rest) := by
  induction nests generalizing rest with
  | nil depth => exact behind
  | value depth name text rows _ ih => exact stands_cons depth depth _ _ rfl rfl (ih rest behind)
  | returned depth rows _ ih => exact stands_cons depth depth _ _ rfl rfl (ih rest behind)
  | node depth type inner rows _ _ ihInner ihRows =>
      have closing := stands_cons (depth + 1) depth ⟨depth, .closing⟩ _ rfl rfl (ihRows rest behind)
      have opening := stands_cons depth (depth + 1) ⟨depth, .opening type⟩ _ rfl rfl (ihInner _ closing)
      simpa using opening

theorem nests_standing (rows : List Element) (nests : Nests 0 rows) (before : List Element) (row : Element)
    (after : List Element) (split : rows = before ++ row :: after) : row.level + closed (before ++ [row]) = opened before := by
  have empty : Stands 0 [] := fun before row after split => by simp at split
  have stands := nests_stands 0 rows [] nests empty
  rw [List.append_nil] at stands
  simpa using stands before row after split

theorem nests_never_more (rows : List Element) (nests : Nests 0 rows) (front : List Element) (early : front <+: rows) :
    closed front ≤ opened front := by
  obtain ⟨back, split⟩ := early
  cases back with
  | nil =>
      rw [List.append_nil] at split
      rw [split]
      exact Nat.le_of_eq (nests_balanced 0 rows nests).symm
  | cons row after =>
      have standing := nests_standing rows nests front row after split.symm
      rw [closed_append] at standing
      omega

-- The lines of `whole` are elements of one depth in front of `rest`.
def Adds (depth : Nat) (rest whole : List Element) : Prop := ∃ own, Nests depth own ∧ whole = own ++ rest

theorem adds_nothing (depth : Nat) (rest : List Element) : Adds depth rest rest := ⟨[], .nil depth, rfl⟩

theorem adds_trans (depth : Nat) (rest middle whole : List Element) (first : Adds depth middle whole)
    (second : Adds depth rest middle) : Adds depth rest whole := by
  obtain ⟨own, nests, rfl⟩ := first
  obtain ⟨more, nestsMore, rfl⟩ := second
  exact ⟨own ++ more, nests_append depth own more nests nestsMore, by simp⟩

theorem adds_value (depth : Nat) (name text : String) (rest whole : List Element) (behind : Adds depth rest whole) :
    Adds depth rest (⟨depth, .value name text⟩ :: whole) := by
  obtain ⟨own, nests, rfl⟩ := behind
  exact ⟨_, .value depth name text own nests, rfl⟩

theorem adds_node (depth : Nat) (type : String) (rest whole : List Element)
    (inside : Adds (depth + 1) (⟨depth, .closing⟩ :: rest) whole) : Adds depth rest (⟨depth, .opening type⟩ :: whole) := by
  obtain ⟨own, nests, rfl⟩ := inside
  exact ⟨_, .node depth type own [] nests (.nil depth), by simp⟩

section Parts

variable (table : SymbolTable) (part : Option Tree) (level : Nat) (rest : List Element)
variable (inside : ∀ tree, part = some tree → ∀ level rest, Adds level rest (prepend table level tree rest))
include inside

theorem section_adds (tag : String) : Adds level rest (prependSection table level tag part rest) := by
  cases part with
  | none => exact adds_nothing level rest
  | some tree => exact adds_node level tag rest _ (inside tree rfl _ _)

theorem body_adds : Adds level rest (prependBody table level part rest) := by
  cases part with
  | none => exact adds_nothing level rest
  | some tree => exact inside tree rfl level rest

end Parts

theorem prepend_adds (table : SymbolTable) (tree : Tree) (level : Nat) (rest : List Element) :
    Adds level rest (prepend table level tree rest) := by
  induction tree generalizing level rest with
  | binary kind op type left right ihLeft ihRight =>
      have inside := adds_trans (level + 1) _ _ _ (ihLeft (level + 1) _) (ihRight (level + 1) (⟨level, .closing⟩ :: rest))
      cases kind with
      | op => exact adds_node _ _ _ _ (adds_value _ _ _ _ _ inside)
      | list => exact adds_node _ _ _ _ inside
  | unary kind op type operand ih =>
      have inside := ih (level + 1) (⟨level, .closing⟩ :: rest)
      cases kind with
      | op => exact adds_node _ _ _ _ (adds_value _ _ _ _ _ inside)
      | input => exact adds_node _ _ _ _ inside
      | output => exact adds_node _ _ _ _ inside
  | literal value => exact adds_value _ _ _ _ _ (adds_nothing level rest)
  | reference type symbol => exact adds_value _ _ _ _ _ (adds_nothing level rest)
  | assignment target value ih => exact adds_value _ _ _ _ _ (adds_value _ _ _ _ _ (ih level rest))
  | flow kind condition thenBranch elseBranch ihCondition ihThen ihElse =>
      have inCondition := fun rest => section_adds table condition (level + 1) rest ihCondition "CONDITION"
      cases kind with
      | branch =>
          have inThen := fun rest => section_adds table thenBranch (level + 1) rest ihThen "IF_TRUE"
          have inElse := section_adds table elseBranch (level + 1) (⟨level, .closing⟩ :: rest) ihElse "IF_FALSE"
          exact adds_node _ _ _ _ (adds_trans _ _ _ _ (inCondition _) (adds_trans _ _ _ _ (inThen _) inElse))
      | loop =>
          have inBody := section_adds table thenBranch (level + 1) (⟨level, .closing⟩ :: rest) ihThen "LOOP_BODY"
          exact adds_node _ _ _ _ (adds_trans _ _ _ _ (inCondition _) inBody)
      | function => exact adds_node _ _ _ _ (body_adds table thenBranch (level + 1) _ ihThen)
  | jump => exact adds_value _ _ _ _ _ (adds_nothing level rest)
  | ret => exact ⟨[⟨level, .returned⟩], .returned level [] (.nil level), rfl⟩

theorem elements_nest (table : SymbolTable) (tree : Tree) : Nests 0 (elements table tree) := by
  obtain ⟨own, nests, whole⟩ := prepend_adds table tree 0 []
  rw [elements, whole, List.append_nil]
  exact nests

section Text

theorem plain_legal (c : Char) (plain : needsEscape c = false) : isLegal c = true := by
  simp only [needsEscape, Bool.or_eq_false_iff, beq_eq_false_iff_ne, decide_eq_false_iff_not] at plain
  obtain ⟨⟨⟨_, control⟩, low⟩, high⟩ := plain
  have scalar : c.toNat < 0xd800 ∨ 0xdfff < c.toNat ∧ c.toNat < 0x110000 := c.valid
  simp only [isLegal, Bool.or_eq_true, Bool.and_eq_true, decide_eq_true_eq]
  omega

theorem escape_char_legal (c shown : Char) (member : shown ∈ escapeChar c) : isLegal shown = true := by
  have inReferences : ∀ reference ∈ references, reference.all isLegal = true := by decide
  rcases escape_char_cases c with reference | replaced | ⟨plain, same⟩
  · exact List.all_eq_true.mp (inReferences _ reference) shown member
  · rw [replaced, List.mem_singleton] at member
    rw [member]
    decide
  · rw [same, List.mem_singleton] at member
    rw [member]
    exact plain_legal c plain

theorem escape_char_ampersand (c : Char) (before after : List Char) (split : escapeChar c = before ++ '&' :: after) :
    escapeChar c ∈ references ∧ before = [] := by
  have member : '&' ∈ escapeChar c := by simp [split]
  rcases escape_char_cases c with reference | replaced | ⟨plain, same⟩
  · refine ⟨reference, ?_⟩
    have once : ∀ reference ∈ references, '&' ∉ reference.tail := by decide
    have alone := once _ reference
    cases before with
    | nil => rfl
    | cons first before => simp [split] at alone
  · rw [replaced] at member
    exact absurd member (by decide)
  · rw [same, List.mem_singleton] at member
    rw [← member] at plain
    exact absurd plain (by decide)

-- An ampersand of escaped text begins the escape of one character. It is looked for from the front, one escape at a time.
theorem escaped_ampersand (chars before after : List Char) (split : chars.flatMap escapeChar = before ++ '&' :: after) :
    ∃ reference ∈ references, reference <+: '&' :: after := by
  induction chars generalizing before with
  | nil => simp at split
  | cons c rest ih =>
      rw [List.flatMap_cons] at split
      rcases List.append_eq_append_iff.mp split with ⟨more, _, later⟩ | ⟨more, here, behind⟩
      · exact ih more later
      · cases more with
        | nil => exact ih [] behind.symm
        | cons first more =>
            obtain ⟨isFirst, rfl⟩ := List.cons.inj behind
            subst isFirst
            obtain ⟨reference, none⟩ := escape_char_ampersand c before more here
            refine ⟨escapeChar c, reference, ?_⟩
            rw [here, none]
            exact ⟨rest.flatMap escapeChar, rfl⟩

theorem escape_clean (text : String) : Clean (escape text).toList := by
  refine ⟨?_, escape_hides text, ?_⟩
  · intro shown member
    rw [escape_chars, List.mem_flatMap] at member
    obtain ⟨c, _, here⟩ := member
    exact escape_char_legal c shown here
  · intro before after split
    rw [escape_chars] at split
    exact escaped_ampersand text.toList before after split

end Text

def Element.shown (element : Element) : Element := ⟨element.level, element.mark.shown⟩

theorem nests_shown (depth : Nat) (rows : List Element) (nests : Nests depth rows) : Nests depth (rows.map Element.shown) := by
  induction nests with
  | nil depth => exact .nil depth
  | value depth name text rest _ ih => exact .value depth name (escape text) _ ih
  | returned depth rest _ ih => exact .returned depth _ ih
  | node depth type inner rest _ _ ihInner ihRest =>
      rw [List.map_cons, List.map_append, List.map_cons]
      exact .node depth type _ _ ihInner ihRest

theorem shown_proper (mark : Mark) (proper : mark.Proper) : mark.shown.Proper := by
  cases mark <;> exact proper

theorem shown_verbatim (mark : Mark) : mark.shown.verbatim = mark.text := by
  cases mark <;> rfl

theorem render_verbatim (layout : Layout) (table : SymbolTable) (tree : Tree) :
    render layout table tree = String.join (((elements table tree).map Element.shown).map (verbatimLine layout)) := by
  rw [render, Page.render, List.map_map, List.map_map]
  congr 2
  funext element
  simp only [Function.comp_apply, Line.render, Element.line, verbatimLine, Element.shown, shown_verbatim, Nat.mul_comm]

theorem clean_of_shown (rows : List Element) (level : Nat) (name text : String)
    (member : ⟨level, .value name text⟩ ∈ rows.map Element.shown) : Clean text.toList := by
  obtain ⟨⟨depth, mark⟩, _, same⟩ := List.mem_map.mp member
  cases mark with
  | value other raw =>
      obtain ⟨_, value⟩ := Element.mk.inj same
      obtain ⟨_, rfl⟩ := Mark.value.inj value
      exact escape_clean raw
  | _ => cases same

theorem verbatim_legal (mark : Mark) (proper : mark.Proper) (clean : ∀ name text, mark = .value name text → Clean text.toList)
    (c : Char) (member : c ∈ mark.verbatim.toList) : isLegal c = true := by
  have names : ∀ name ∈ nodeTypes ++ valueNames, name.toList.all isLegal = true := by decide
  have around : ∀ text ∈ ["<node type=\"", "\">", "</node>", "<value name=\"", "</value>", "<node type=\"RETURN\"></node>"],
      text.toList.all isLegal = true := by decide
  cases mark with
  | opening type =>
      change c ∈ ("<node type=\"" ++ type ++ "\">").toList at member
      rw [String.toList_append, String.toList_append, List.mem_append, List.mem_append] at member
      rcases member with (before | inside) | behind
      · exact List.all_eq_true.mp (around _ (by decide)) c before
      · exact List.all_eq_true.mp (names type (List.mem_append_left _ proper)) c inside
      · exact List.all_eq_true.mp (around _ (by decide)) c behind
  | closing => exact List.all_eq_true.mp (around _ (by decide)) c member
  | value name text =>
      change c ∈ ("<value name=\"" ++ name ++ "\">" ++ text ++ "</value>").toList at member
      simp only [String.toList_append, List.mem_append] at member
      rcases member with (((before | inside) | between) | content) | behind
      · exact List.all_eq_true.mp (around _ (by decide)) c before
      · exact List.all_eq_true.mp (names name (List.mem_append_right _ proper)) c inside
      · exact List.all_eq_true.mp (around _ (by decide)) c between
      · exact (clean name text rfl).legal c content
      · exact List.all_eq_true.mp (around _ (by decide)) c behind
  | returned => exact List.all_eq_true.mp (around _ (by decide)) c member

theorem blank_legal (c : Char) (blank : isBlank c = true) : isLegal c = true := by
  simp only [isBlank, Bool.or_eq_true, beq_iff_eq] at blank
  rcases blank with ((rfl | rfl) | rfl) | rfl <;> decide

theorem render_well_formed (layout : Layout) (table : SymbolTable) (tree : Tree) (blank : BlankLines layout) :
    ∃ rows, WellFormed layout (render layout table tree) rows := by
  have nests := nests_shown 0 _ (elements_nest table tree)
  have proper : ∀ row ∈ (elements table tree).map Element.shown, row.mark.Proper := by
    intro row member
    obtain ⟨element, inside, rfl⟩ := List.mem_map.mp member
    exact shown_proper element.mark (prepend_proper table tree 0 [] (by simp [AllProper]) element inside)
  have clean := clean_of_shown (elements table tree)
  refine ⟨(elements table tree).map Element.shown, render_verbatim layout table tree, proper, nests,
    nests_balanced 0 _ nests, nests_never_more _ nests, nests_standing _ nests, clean, ?_⟩
  intro c member
  rw [render_verbatim, String.toList_join, List.mem_flatMap] at member
  obtain ⟨line, isLine, inLine⟩ := member
  obtain ⟨row, isRow, rfl⟩ := List.mem_map.mp isLine
  simp only [verbatimLine, String.toList_append, String.toList_ofList, List.mem_append] at inLine
  rcases inLine with (indent | mark) | ending
  · rw [List.eq_of_mem_replicate indent]
    decide
  · refine verbatim_legal row.mark (proper row isRow) (fun name text same => clean row.level name text ?_) c mark
    rw [← same]
    exact isRow
  · exact blank_legal c (blank c ending)

-- A loop that nothing builds, without a condition and with a second branch, and texts that markup cannot carry.
def crooked : Tree :=
  .flow .loop none (some (.unary .op ⟨"\x00<", by decide⟩ none (.literal (.charArray "&\uffff")))) (some .jump)

theorem render_well_formed_crooked :
    BlankLines ⟨1, "\t"⟩ ∧
      render ⟨1, "\t"⟩ .empty crooked = "<node type=\"LOOP\">\t <node type=\"LOOP_BODY\">\t  <node type=\"UNOP\">\t"
        ++ "   <value name=\"OP\">\ufffd&lt;</value>\t   <value name=\"STRING\">&amp;\ufffd</value>\t  </node>\t </node>\t</node>\t" ∧
      ∃ rows, WellFormed ⟨1, "\t"⟩ (render ⟨1, "\t"⟩ .empty crooked) rows := by
  have blank : BlankLines ⟨1, "\t"⟩ := by simp [BlankLines, isBlank]
  exact ⟨blank, by decide +kernel, render_well_formed _ _ _ blank⟩

end Frontend.Markup
