import Frontend.Proofs.Builder.Shape

set_option autoImplicit false

namespace Frontend

namespace Tree

-- The first tree that is no operator, on the way down through left and only operands.
def spineEnd : Tree → Tree
  | .binary _ _ _ left _ => left.spineEnd
  | .unary _ _ _ operand => operand.spineEnd
  | tree => tree

-- The type that a tree has of itself and not from an operand.
def ownType : Tree → Option ValueType
  | .literal value => some value.type
  | .reference type _ => type
  | _ => none

end Tree

theorem shaped_type (tree : Tree) (shaped : Everywhere Shaped tree) : tree.type = tree.spineEnd.ownType := by
  induction tree with
  | binary kind op type left right left_ih _ =>
      obtain ⟨_, here, below⟩ := shaped
      rw [Tree.type, here.typed]
      exact left_ih (below left (by simp [Tree.children]))
  | unary kind op type operand ih =>
      obtain ⟨_, here, below⟩ := shaped
      rw [Tree.type, here.typed]
      exact ih (below operand (by simp [Tree.children]))
  | literal value => rfl
  | reference type symbol => rfl
  | assignment target value _ => rfl
  | flow kind condition thenBranch elseBranch _ _ _ => rfl
  | jump => rfl
  | ret => rfl

theorem built_shaped_and_typed (tree : Tree) (built : Built tree) :
    Everywhere Shaped tree ∧ tree.type = tree.spineEnd.ownType ∧
    ∀ other, Built other → other.spineEnd = tree.spineEnd → other.type = tree.type := by
  have shaped := built_everywhere Shaped production_shaped
  have typed := fun other built => shaped_type other (shaped other built)
  refine ⟨shaped tree built, typed tree built, ?_⟩
  intro other otherBuilt sameEnd
  rw [typed other otherBuilt, typed tree built, sameEnd]

def question : Tree := .flow .branch (some (.literal (.bool true))) none (some .jump)

-- The types on the right differ from the one on the left, or there is none.
def printed : Tree :=
  .binary .list .list (some (.scalar .int))
    (.unary .output .empty (some (.scalar .int))
      (.binary .op ⟨"<", by decide⟩ (some (.scalar .int)) (.literal (.int 1)) (.literal (.charArray "a"))))
    question

def negated : Tree := .unary .op ⟨"-", by decide⟩ (some (.scalar .int)) (.literal (.int 1))

theorem one_built : Built (.literal (.int 1)) := .made {} _ .empty (.literal (.int 1)) _ (by simp [Production.operands]) rfl

theorem question_built : Built question := by
  have truth : Built (.literal (.bool true)) :=
    .made {} _ .empty (.literal (.bool true)) _ (by simp [Production.operands]) rfl
  have jump : Built .jump := .made {} _ .empty .jump _ (by simp [Production.operands]) rfl
  exact .made {} _ .empty (.branch (.literal (.bool true)) none (some .jump)) _ (by simp [Production.operands, truth, jump]) rfl

theorem printed_built : Built printed := by
  have text : Built (.literal (.charArray "a")) :=
    .made {} _ .empty (.literal (.charArray "a")) _ (by simp [Production.operands]) rfl
  have comparison := Built.made {} _ .empty (.binary "<" (.literal (.int 1)) (.literal (.charArray "a"))) _
    (by simp [Production.operands, one_built, text]) rfl
  have shown := Built.made {} _ .empty (.output _) _ (by simpa [Production.operands] using comparison) rfl
  exact .made {} _ .empty (.sequence _ question) _ (by simpa [Production.operands, question_built] using shown) rfl

theorem built_shaped_and_typed_printed :
    Built printed ∧ Built negated ∧ negated.spineEnd = printed.spineEnd ∧ Everywhere Shaped printed ∧
      printed.type = some (.scalar .int) ∧ negated.type = printed.type := by
  have other : Built negated :=
    .made {} _ .empty (.unary "-" (.literal (.int 1))) _ (by simp [Production.operands, one_built]) rfl
  obtain ⟨shaped, typed, same⟩ := built_shaped_and_typed printed printed_built
  exact ⟨printed_built, other, rfl, shaped, typed, same negated other rfl⟩

end Frontend
