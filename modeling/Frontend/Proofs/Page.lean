import Frontend.Page

set_option autoImplicit false

namespace Frontend

theorem delimited_unique (delimiter : Char) (a b left right : List Char) (clean : delimiter ∉ a) (cleanToo : delimiter ∉ b)
    (equal : a ++ delimiter :: left = b ++ delimiter :: right) : a = b ∧ left = right := by
  induction a generalizing b with
  | nil =>
      cases b with
      | nil => exact ⟨rfl, (List.cons.inj equal).2⟩
      | cons first rest => exact absurd ((List.cons.inj equal).1 ▸ List.mem_cons_self) cleanToo
  | cons first rest ih =>
      cases b with
      | nil => exact absurd ((List.cons.inj equal).1 ▸ List.mem_cons_self) clean
      | cons other more =>
          obtain ⟨sameFirst, sameRest⟩ := List.cons.inj equal
          obtain ⟨same, after⟩ := ih more (fun member => clean (List.mem_cons_of_mem first member))
            (fun member => cleanToo (List.mem_cons_of_mem other member)) sameRest
          exact ⟨by rw [sameFirst, same], after⟩

theorem page_cons (layout : Layout) (line : Line) (page : Page) :
    (Page.render layout (line :: page)).toList = List.replicate (line.level * layout.indentWidth) ' '
      ++ (line.text.toList ++ (layout.newLine.toList ++ (Page.render layout page).toList)) := by
  simp [Page.render, Line.render, String.toList_join]

-- A text that stays on its line, and that shows where the indent in front of it ends.
def Line.Plain (line : Line) : Prop := '\n' ∉ line.text.toList ∧ line.text.toList.head? ≠ some ' '

theorem indent_unique (m n : Nat) (a b : List Char) (first : a.head? ≠ some ' ') (second : b.head? ≠ some ' ')
    (equal : List.replicate m ' ' ++ a = List.replicate n ' ' ++ b) : m = n ∧ a = b := by
  induction m generalizing n with
  | zero =>
      cases n with
      | zero => exact ⟨rfl, equal⟩
      | succ n =>
          rw [List.replicate_zero, List.nil_append] at equal
          exact absurd (by rw [equal]; rfl) first
  | succ m ih =>
      cases n with
      | zero =>
          rw [List.replicate_zero, List.nil_append] at equal
          exact absurd (by rw [← equal]; rfl) second
      | succ n =>
          obtain ⟨same, rest⟩ := ih n (List.cons.inj equal).2
          exact ⟨by rw [same], rest⟩

def Line.shown (layout : Layout) (line : Line) : List Char :=
  List.replicate (line.level * layout.indentWidth) ' ' ++ line.text.toList

theorem line_unbroken (layout : Layout) (line : Line) (clean : '\n' ∉ line.text.toList) : '\n' ∉ line.shown layout := by
  intro member
  rcases List.mem_append.mp member with indent | text
  · exact absurd (List.eq_of_mem_replicate indent) (by decide)
  · exact clean text

theorem line_unique (layout : Layout) (wide : 1 ≤ layout.indentWidth) (a b : Line) (plain : a.Plain) (plainToo : b.Plain)
    (left right : List Char)
    (equal : List.replicate (a.level * layout.indentWidth) ' ' ++ (a.text.toList ++ '\n' :: left) =
      List.replicate (b.level * layout.indentWidth) ' ' ++ (b.text.toList ++ '\n' :: right)) : a = b ∧ left = right := by
  rw [← List.append_assoc, ← List.append_assoc] at equal
  obtain ⟨whole, after⟩ :=
    delimited_unique '\n' _ _ left right (line_unbroken layout a plain.1) (line_unbroken layout b plainToo.1) equal
  obtain ⟨indents, texts⟩ := indent_unique _ _ _ _ plain.2 plainToo.2 whole
  have levels : a.level = b.level := Nat.eq_of_mul_eq_mul_right wide indents
  obtain ⟨level, text⟩ := a
  obtain ⟨level', text'⟩ := b
  dsimp only at levels texts
  exact ⟨by rw [levels, String.toList_inj.mp texts], after⟩

-- Nothing stands behind the last line feed.
theorem page_lines (layout : Layout) (ends : layout.newLine = "\n") (page : Page)
    (clean : ∀ line ∈ page, '\n' ∉ line.text.toList) :
    (Page.render layout page).toList.splitOn '\n' = page.map (Line.shown layout) ++ [[]] := by
  have ending : layout.newLine.toList = ['\n'] := by rw [ends]; decide
  induction page with
  | nil => rfl
  | cons line page ih =>
      obtain ⟨first, others⟩ := List.forall_mem_cons.mp clean
      have unbroken : ∀ c ∈ line.shown layout, (c == '\n') = false := by
        intro c member
        rw [beq_eq_false_iff_ne]
        exact fun feed => line_unbroken layout line first (feed ▸ member)
      rw [page_cons, ending, ← List.append_assoc]
      change List.splitOnP (· == '\n') (line.shown layout ++ '\n' :: (Page.render layout page).toList) = _
      rw [List.splitOnP_append_cons_of_forall_mem unbroken '\n' (by decide)]
      exact congrArg (List.cons _) (ih others)

theorem page_unique (layout : Layout) (wide : 1 ≤ layout.indentWidth) (ends : layout.newLine = "\n") (a b : Page)
    (plain : ∀ line ∈ a, line.Plain) (plainToo : ∀ line ∈ b, line.Plain)
    (equal : (Page.render layout a).toList = (Page.render layout b).toList) : a = b := by
  have ending : layout.newLine.toList = ['\n'] := by rw [ends]; decide
  have never : ∀ (line : Line) (page : Page), (Page.render layout (line :: page)).toList ≠ [] := by
    intro line page
    rw [page_cons, ending]
    simp
  induction a generalizing b with
  | nil =>
      cases b with
      | nil => rfl
      | cons line rest => exact absurd equal.symm (never line rest)
  | cons line rest ih =>
      cases b with
      | nil => exact absurd equal (never line rest)
      | cons other more =>
          obtain ⟨first, others⟩ := List.forall_mem_cons.mp plain
          obtain ⟨firstToo, othersToo⟩ := List.forall_mem_cons.mp plainToo
          rw [page_cons, page_cons, ending] at equal
          obtain ⟨same, after⟩ := line_unique layout wide line other first firstToo _ _ equal
          rw [same, ih more others othersToo after]

end Frontend
