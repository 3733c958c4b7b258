import Mathlib.Logic.Relation
import Frontend.Proofs.Builder.Budget
import Frontend.Proofs.Tree.Release

set_option autoImplicit false

namespace Frontend

structure Ledger where
  builder : Builder
  owned : List Tree := []
  -- The sum of what the releases so far have returned.
  released : Nat := 0
  -- The nodes of the trees that were dropped or went into calls that failed.
  lost : Nat := 0

namespace Ledger

-- A call takes its operands out of the owned trees, whether it succeeds or not. The table may be any at each call.
inductive Step (ledger : Ledger) : Ledger → Prop where
  | built (table : SymbolTable) (production : Production) (rest : List Tree) (tree : Tree) (after : Builder)
      (taken : ledger.owned.Perm (production.operands ++ rest))
      (result : ledger.builder.build table production = .ok (.ok tree, after)) :
      Step ledger { ledger with builder := after, owned := tree :: rest }
  | failed (table : SymbolTable) (production : Production) (rest : List Tree) (error : BuildError) (after : Builder)
      (taken : ledger.owned.Perm (production.operands ++ rest))
      (result : ledger.builder.build table production = .ok (.error error, after)) :
      Step ledger { ledger with builder := after, owned := rest, lost := ledger.lost + Tree.countAll production.operands }
  | released (tree : Tree) (rest : List Tree) (taken : ledger.owned.Perm (tree :: rest)) :
      Step ledger { ledger with owned := rest, released := ledger.released + tree.release }
  | dropped (tree : Tree) (rest : List Tree) (taken : ledger.owned.Perm (tree :: rest)) :
      Step ledger { ledger with owned := rest, lost := ledger.lost + tree.count }

def Reached (limit : Option Nat) (ledger : Ledger) : Prop :=
  Relation.ReflTransGen Step { builder := { limits := ⟨.propagate, limit⟩ } } ledger

structure Balanced (limit : Option Nat) (ledger : Ledger) : Prop where
  limits : ledger.builder.limits = ⟨.propagate, limit⟩
  total : ledger.builder.allocated = Tree.countAll ledger.owned + ledger.released + ledger.lost
  within : ∀ max, limit = some max → ledger.builder.allocated ≤ max

end Ledger

-- How a call ends, from the operator of the production and from the nodes that were counted before it.
structure Answered (limit : Option Nat) (builder : Builder) (production : Production) (result : Except BuildError Tree)
    (after : Builder) : Prop where
  invalid : ∀ operator, result = .error (.invalidOperator (.tooLong operator)) ↔
    production.operator? = some operator ∧ 2 < operator.utf8ByteSize
  spent : ∀ max, result = .error (.budgetExceeded max) ↔
    ¬ production.Overlong ∧ limit = some max ∧ builder.allocated = max
  made : (∃ tree, result = .ok tree) ↔ ¬ production.Overlong ∧ ∀ max, limit = some max → builder.allocated ≠ max
  kept : ∀ error, result = .error error → after = builder
  grown : ∀ tree, result = .ok tree →
    after = { builder with allocated := builder.allocated + 1 } ∧ tree.children = production.operands

theorem answered_invalid (limit : Option Nat) (builder : Builder) (production : Production) (operator : String)
    (text : production.operator? = some operator) (long : 2 < operator.utf8ByteSize) :
    Answered limit builder production (.error (.invalidOperator (.tooLong operator))) builder := by
  have overlong : production.Overlong := ⟨operator, text, long⟩
  refine ⟨?_, by simp [overlong], by simp [overlong], fun _ _ => rfl, by simp⟩
  intro other
  rw [text]
  constructor
  · intro same
    cases same
    exact ⟨rfl, long⟩
  · rintro ⟨same, _⟩
    rw [Option.some.inj same]

section Call

variable (limit : Option Nat) (builder : Builder) (limits : builder.limits = ⟨.propagate, limit⟩)
  (within : ∀ max, limit = some max → builder.allocated ≤ max)
include limits within

theorem full_iff (max : Nat) : builder.Full max ↔ limit = some max ∧ builder.allocated = max := by
  rw [Builder.Full, limits]
  constructor
  · rintro ⟨set, reached⟩
    exact ⟨set, Nat.le_antisymm (within max set) reached⟩
  · rintro ⟨set, same⟩
    exact ⟨set, Nat.le_of_eq same.symm⟩

theorem answered_spent (production : Production) (short : ¬ production.Overlong) (max : Nat) (full : builder.Full max) :
    Answered limit builder production (.error (.budgetExceeded max)) builder := by
  obtain ⟨set, reached⟩ := (full_iff limit builder limits within max).mp full
  refine ⟨?_, ?_, ?_, fun _ _ => rfl, by simp⟩
  · intro operator
    simp only [Except.error.injEq, reduceCtorEq, false_iff]
    exact fun long => short ⟨operator, long⟩
  · intro other
    constructor
    · intro same
      cases same
      exact ⟨short, set, reached⟩
    · rintro ⟨_, same, _⟩
      rw [Option.some.inj (set.symm.trans same)]
  · simp only [reduceCtorEq, exists_false, false_iff]
    exact fun room => room.2 max set reached

theorem answered_made (table : SymbolTable) (production : Production) (short : ¬ production.Overlong)
    (room : ∀ max, ¬ builder.Full max) (tree : Tree) (made : production.tree table = .ok tree) :
    Answered limit builder production (.ok tree) { builder with allocated := builder.allocated + 1 } := by
  have full := full_iff limit builder limits within
  refine ⟨?_, ?_, ?_, by simp, ?_⟩
  · intro operator
    simp only [reduceCtorEq, false_iff]
    exact fun long => short ⟨operator, long⟩
  · intro max
    simp only [reduceCtorEq, false_iff]
    exact fun spent => room max ((full max).mpr spent.2)
  · refine ⟨fun _ => ⟨short, ?_⟩, fun _ => ⟨tree, rfl⟩⟩
    exact fun max set reached => room max ((full max).mpr ⟨set, reached⟩)
  · intro other same
    cases same
    exact ⟨rfl, production_children table production tree made⟩

theorem build_answered (table : SymbolTable) (production : Production) :
    ∃ result after, builder.build table production = .ok (result, after) ∧
      Answered limit builder production result after := by
  rcases builder.build_cases table production with
    ⟨operator, text, long, built⟩ | ⟨short, max, full, built⟩ | ⟨short, room, tree, made, built⟩
  · exact ⟨_, _, built, answered_invalid limit builder production operator text long⟩
  · rw [limits] at built
    exact ⟨_, _, built, answered_spent limit builder limits within production short max full⟩
  · exact ⟨_, _, built, answered_made limit builder limits within table production short room tree made⟩

theorem result_answered (table : SymbolTable) (production : Production) (result : Except BuildError Tree) (after : Builder)
    (built : builder.build table production = .ok (result, after)) : Answered limit builder production result after := by
  obtain ⟨_, _, total, answered⟩ := build_answered limit builder limits within table production
  rw [built] at total
  cases total
  exact answered

end Call

namespace Ledger

theorem start_balanced (limit : Option Nat) : Balanced limit { builder := { limits := ⟨.propagate, limit⟩ } } :=
  ⟨rfl, rfl, fun max _ => Nat.zero_le max⟩

theorem step_balanced (limit : Option Nat) (ledger next : Ledger) (step : ledger.Step next)
    (balanced : ledger.Balanced limit) : next.Balanced limit := by
  obtain ⟨limits, total, within⟩ := balanced
  cases step with
  | built table production rest tree after taken result =>
      have answered := result_answered limit ledger.builder limits within table production _ after result
      obtain ⟨grown, parts⟩ := answered.grown tree rfl
      obtain ⟨_, room⟩ := answered.made.mp ⟨tree, rfl⟩
      have size := Tree.count_children tree
      rw [parts] at size
      refine ⟨by rw [grown]; exact limits, ?_, ?_⟩
      · rw [Tree.count_all_perm _ _ taken, Tree.count_all_append] at total
        simp only [grown, Tree.countAll]
        omega
      · intro max set
        have below := within max set
        have short := room max set
        simp only [grown]
        omega
  | failed table production rest error after taken result =>
      have answered := result_answered limit ledger.builder limits within table production _ after result
      rw [answered.kept error rfl]
      refine ⟨limits, ?_, within⟩
      rw [Tree.count_all_perm _ _ taken, Tree.count_all_append] at total
      dsimp only
      omega
  | released tree rest taken =>
      refine ⟨limits, ?_, within⟩
      rw [Tree.count_all_perm _ _ taken, Tree.countAll] at total
      dsimp only
      rw [Tree.release_count]
      omega
  | dropped tree rest taken =>
      refine ⟨limits, ?_, within⟩
      rw [Tree.count_all_perm _ _ taken, Tree.countAll] at total
      dsimp only
      omega

theorem reached_balanced (limit : Option Nat) (ledger : Ledger) (reached : ledger.Reached limit) :
    ledger.Balanced limit := by
  induction reached with
  | refl => exact start_balanced limit
  | tail _ step ih => exact step_balanced limit _ _ step ih

theorem nodes_conserved (limit : Option Nat) (ledger : Ledger) (reached : ledger.Reached limit) :
    ledger.builder.allocated = Tree.countAll ledger.owned + ledger.released + ledger.lost ∧
    (∀ max, limit = some max → ledger.builder.allocated ≤ max) ∧
    (∀ table production, ∃ result after, ledger.builder.build table production = .ok (result, after) ∧
      Answered limit ledger.builder production result after) ∧
    ∀ tree, ledger.owned = [tree] → ledger.released = 0 → ledger.lost = 0 →
      tree.count = ledger.builder.allocated ∧ tree.release = ledger.builder.allocated := by
  obtain ⟨limits, total, within⟩ := reached_balanced limit ledger reached
  refine ⟨total, within, build_answered limit ledger.builder limits within, ?_⟩
  intro tree whole noRelease noLoss
  rw [whole, noRelease, noLoss] at total
  have size : tree.count = ledger.builder.allocated := total.symm
  exact ⟨size, (Tree.release_count tree).trans size⟩

def addition : Tree :=
  .binary .op ⟨"+", by decide⟩ (some (.scalar .int)) (.literal (.int 1)) (.literal (.int 2))

def allInOne : Ledger where
  builder := { limits := ⟨.propagate, some 5⟩, allocated := 3 }
  owned := [addition]

theorem all_in_one_reached : allInOne.Reached (some 5) :=
  Relation.ReflTransGen.refl.tail (.built .empty (.literal (.int 1)) [] (.literal (.int 1)) _ (.refl _) rfl)
    |>.tail (.built .empty (.literal (.int 2)) [.literal (.int 1)] (.literal (.int 2)) _ (.refl _) rfl)
    |>.tail (.built .empty (.binary "+" (.literal (.int 1)) (.literal (.int 2))) [] addition _ (.swap _ _ _) rfl)

-- Of five nodes, three were given back with the addition and one went into a call with a bad operator.
def spentFive : Ledger where
  builder := { limits := ⟨.propagate, some 5⟩, allocated := 5 }
  owned := [.ret]
  released := 3
  lost := 1

theorem spent_five_reached : spentFive.Reached (some 5) :=
  all_in_one_reached.tail (.built .empty .jump [addition] .jump _ (.refl _) rfl)
    |>.tail (.failed .empty (.unary "not" .jump) [addition] (.invalidOperator (.tooLong "not")) _ (.refl _) rfl)
    |>.tail (.built .empty .ret [addition] .ret _ (.refl _) rfl)
    |>.tail (.failed .empty (.literal (.int 3)) [.ret, addition] (.budgetExceeded 5) _ (.refl _) rfl)
    |>.tail (.released addition [.ret] (.swap _ _ _))

theorem nodes_conserved_spent_five :
    allInOne.Reached (some 5) ∧ addition.count = 3 ∧ addition.release = 3 ∧
    spentFive.Reached (some 5) ∧ 5 = Tree.countAll [.ret] + 3 + 1 ∧ spentFive.builder.allocated ≤ 5 ∧
    ∃ result after, spentFive.builder.build .empty .jump = .ok (result, after) ∧
      Answered (some 5) spentFive.builder .jump result after := by
  obtain ⟨_, _, _, whole⟩ := nodes_conserved (some 5) allInOne all_in_one_reached
  obtain ⟨counted, released⟩ := whole addition rfl rfl rfl
  obtain ⟨total, within, answers, _⟩ := nodes_conserved (some 5) spentFive spent_five_reached
  exact ⟨all_in_one_reached, counted, released, spent_five_reached, total, within 5 rfl, answers .empty .jump⟩

end Ledger

end Frontend
