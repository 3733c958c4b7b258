import Frontend.Proofs.Builder.Shape

set_option autoImplicit false

namespace Frontend

namespace Production

def operator? : Production → Option String
  | .binary operator _ _ => some operator
  | .unary operator _ => some operator
  | _ => none

def Overlong (production : Production) : Prop :=
  ∃ operator, production.operator? = some operator ∧ 2 < operator.utf8ByteSize

theorem label_cases (operator : String) :
    (2 < operator.utf8ByteSize ∧ Label.ofText operator = .error (.tooLong operator)) ∨
    (¬ 2 < operator.utf8ByteSize ∧ ∃ label, Label.ofText operator = .ok label) := by
  by_cases fits : operator.utf8ByteSize ≤ 2
  · exact Or.inr ⟨Nat.not_lt.mpr fits, ⟨operator, fits⟩, dif_pos fits⟩
  · exact Or.inl ⟨Nat.lt_of_not_le fits, dif_neg fits⟩

theorem tree_cases (table : SymbolTable) (production : Production) :
    (∃ operator, production.operator? = some operator ∧ 2 < operator.utf8ByteSize ∧
      production.tree table = .error (.tooLong operator)) ∨
    (¬ production.Overlong ∧ ∃ tree, production.tree table = .ok tree) := by
  cases production with
  | binary operator left right =>
      rcases label_cases operator with ⟨long, refused⟩ | ⟨short, label, accepted⟩
      · exact Or.inl ⟨operator, rfl, long, by simp only [tree, refused]⟩
      · refine Or.inr ⟨by simpa [Overlong, operator?] using short, .binary .op label left.type left right, ?_⟩
        simp only [tree, accepted]
  | unary operator operand =>
      rcases label_cases operator with ⟨long, refused⟩ | ⟨short, label, accepted⟩
      · exact Or.inl ⟨operator, rfl, long, by simp only [tree, refused]⟩
      · refine Or.inr ⟨by simpa [Overlong, operator?] using short, .unary .op label operand.type operand, ?_⟩
        simp only [tree, accepted]
  | _ => exact Or.inr ⟨by simp [Overlong, operator?], _, rfl⟩

end Production

namespace Builder

variable (builder : Builder)

def Full (max : Nat) : Prop := builder.limits.maxNodes = some max ∧ max ≤ builder.allocated

theorem reserve_full (max : Nat) (full : builder.Full max) (what : String) :
    builder.reserve what = (builder.limits.policy.exhausted what).map fun _ => (.error (.budgetExceeded max), builder) := by
  rw [reserve, full.1]
  dsimp only
  rw [if_pos full.2]
  cases builder.limits.policy.exhausted what <;> rfl

theorem reserve_room (room : ∀ max, ¬ builder.Full max) (what : String) :
    builder.reserve what = .ok (.ok (), { builder with allocated := builder.allocated + 1 }) := by
  unfold reserve
  cases limit : builder.limits.maxNodes with
  | none => rfl
  | some max => exact if_neg fun reached => room max ⟨limit, reached⟩

section Build

variable (table : SymbolTable) (production : Production)

theorem build_refused (error : LabelError) (refused : production.tree table = .error error) :
    builder.build table production = .ok (.error (.invalidOperator error), builder) := by
  simp only [build, refused]

-- Only here the policy is asked, and it may end the program.
theorem build_full (tree : Tree) (made : production.tree table = .ok tree) (max : Nat) (full : builder.Full max) :
    builder.build table production =
      (builder.limits.policy.exhausted production.shape).map fun _ => (.error (.budgetExceeded max), builder) := by
  simp only [build, made, builder.reserve_full max full]
  cases builder.limits.policy.exhausted production.shape <;> rfl

theorem build_room (tree : Tree) (made : production.tree table = .ok tree) (room : ∀ max, ¬ builder.Full max) :
    builder.build table production = .ok (.ok tree, { builder with allocated := builder.allocated + 1 }) := by
  simp only [build, made, builder.reserve_room room]

theorem build_cases :
    (∃ operator, production.operator? = some operator ∧ 2 < operator.utf8ByteSize ∧
      builder.build table production = .ok (.error (.invalidOperator (.tooLong operator)), builder)) ∨
    (¬ production.Overlong ∧ ∃ max, builder.Full max ∧
      builder.build table production =
        (builder.limits.policy.exhausted production.shape).map fun _ => (.error (.budgetExceeded max), builder)) ∨
    (¬ production.Overlong ∧ (∀ max, ¬ builder.Full max) ∧ ∃ tree, production.tree table = .ok tree ∧
      builder.build table production = .ok (.ok tree, { builder with allocated := builder.allocated + 1 })) := by
  rcases production.tree_cases table with ⟨operator, text, long, refused⟩ | ⟨short, tree, made⟩
  · exact Or.inl ⟨operator, text, long, builder.build_refused table production _ refused⟩
  · refine Or.inr ?_
    by_cases full : ∃ max, builder.Full max
    · obtain ⟨max, full⟩ := full
      exact Or.inl ⟨short, max, full, builder.build_full table production tree made max full⟩
    · have room : ∀ max, ¬ builder.Full max := fun max reached => full ⟨max, reached⟩
      exact Or.inr ⟨short, room, tree, made, builder.build_room table production tree made room⟩

end Build

end Builder

end Frontend
