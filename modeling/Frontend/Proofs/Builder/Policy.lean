import Mathlib.Data.List.TakeWhile
import Frontend.Proofs.Builder.Budget
import Frontend.Proofs.SymbolTable.Queries

set_option autoImplicit false

namespace Frontend

-- What the program reports that it could not allocate, by the tree that was to be built.
def Tree.shape : Tree → String
  | .binary _ _ _ _ _ => "binary node"
  | .unary _ _ _ _ => "unary node"
  | .literal _ => "literal node"
  | .reference _ _ => "reference node"
  | .assignment _ _ => "assignment node"
  | .flow _ _ _ _ => "control flow node"
  | .jump => "jump node"
  | .ret => "return node"

theorem production_shape (table : SymbolTable) (production : Production) (tree : Tree)
    (made : production.tree table = .ok tree) : production.shape = tree.shape := by
  cases production with
  | binary operator left right =>
      obtain ⟨label, rfl⟩ := binary_made table operator left right tree made
      rfl
  | unary operator operand =>
      obtain ⟨label, rfl⟩ := unary_made table operator operand tree made
      rfl
  | _ =>
      cases made
      rfl

inductive Call where
  | turn (turn : Turn)
  | build (production : Production)
  | allocated

inductive Returned where
  | turn (response : Response)
  | built (result : Except BuildError Tree)
  | allocated (count : Nat)

def Returned.spent : Returned → Bool
  | .built (.error (.budgetExceeded _)) => true
  | _ => false

-- A table and a builder that work together.
structure Site where
  table : SymbolTable := .empty
  builder : Builder

-- Decides on the next call from all that was returned so far. A fixed list of calls is one that never looks.
abbrev Caller := List Returned → Option Call

structure Course where
  returned : List Returned
  site : Site
  halt : Option Halt

namespace Site

def start (policy : Policy) (limit : Option Nat) : Site where
  builder := { limits := ⟨policy, limit⟩ }

def under (policy : Policy) (site : Site) : Site :=
  { site with builder := { site.builder with limits := { site.builder.limits with policy := policy } } }

def call (site : Site) : Call → Except Halt (Returned × Site)
  | .turn turn => .ok (.turn (site.table.turn turn).1, { site with table := (site.table.turn turn).2 })
  | .build production =>
    match site.builder.build site.table production with
    | .error halt => .error halt
    | .ok (result, builder) => .ok (.built result, { site with builder := builder })
  | .allocated => .ok (.allocated site.builder.allocated, site)

def run (site : Site) (caller : Caller) (returned : List Returned) : Nat → Course
  | 0 => ⟨returned, site, none⟩
  | calls + 1 =>
    match caller returned with
    | none => ⟨returned, site, none⟩
    | some call =>
      match site.call call with
      | .error halt => ⟨returned, site, some halt⟩
      | .ok (answer, next) => next.run caller (returned ++ [answer]) calls

def course (policy : Policy) (limit : Option Nat) (caller : Caller) (calls : Nat) : Course :=
  (start policy limit).run caller [] calls

-- A call is answered alike under every policy, or it is the one that finds the budget spent.
inductive Meets (site : Site) (call : Call) : Prop where
  | alike (answer : Returned) (next : Site) (unspent : answer.spent = false)
      (answered : ∀ policy, (site.under policy).call call = .ok (answer, next.under policy))
  | spent (production : Production) (tree : Tree) (max : Nat) (building : call = .build production)
      (made : production.tree site.table = .ok tree)
      (told : (site.under .propagate).call call = .ok (.built (.error (.budgetExceeded max)), site.under .propagate))
      (ended : (site.under .abort).call call = .error (.outOfSpace tree.shape))

theorem call_built (site : Site) (production : Production) (result : Except BuildError Tree) (builder : Builder)
    (built : site.builder.build site.table production = .ok (result, builder)) :
    site.call (.build production) = .ok (.built result, { site with builder := builder }) := by
  simp only [call, built]

theorem call_halted (site : Site) (production : Production) (halt : Halt)
    (halted : site.builder.build site.table production = .error halt) : site.call (.build production) = .error halt := by
  simp only [call, halted]

theorem call_meets (site : Site) (call : Call) : site.Meets call := by
  cases call with
  | turn turn => exact .alike (.turn (site.table.turn turn).1) { site with table := (site.table.turn turn).2 } rfl fun _ => rfl
  | allocated => exact .alike (.allocated site.builder.allocated) site rfl fun _ => rfl
  | build production =>
      cases made : production.tree site.table with
      | error error =>
          refine .alike (.built (.error (.invalidOperator error))) site rfl fun policy => ?_
          exact call_built _ production _ _ ((site.under policy).builder.build_refused _ production error made)
      | ok tree =>
          by_cases full : ∃ max, site.builder.Full max
          · obtain ⟨max, full⟩ := full
            have spent := fun policy => (site.under policy).builder.build_full site.table production tree made max full
            rw [production_shape site.table production tree made] at spent
            exact .spent production tree max rfl made (call_built _ production _ _ (spent .propagate))
              (call_halted _ production _ (spent .abort))
          · have room : ∀ max, ¬ site.builder.Full max := fun max reached => full ⟨max, reached⟩
            refine .alike (.built (.ok tree))
              { site with builder := { site.builder with allocated := site.builder.allocated + 1 } } rfl fun policy => ?_
            exact call_built _ production _ _ ((site.under policy).builder.build_room _ production tree made room)

-- Where a course has ended before its caller was done, and what the next call would have been told.
def EndedSpent (caller : Caller) (course : Course) : Prop :=
  ∃ production tree max, caller course.returned = some (.build production) ∧
    production.tree course.site.table = .ok tree ∧ course.halt = some (.outOfSpace tree.shape) ∧
    (course.site.under .propagate).call (.build production) =
      .ok (.built (.error (.budgetExceeded max)), course.site.under .propagate)

-- Two courses from one place, after the same answers. One goes on over errors, with `later` still to come; the
-- other is cut off at the first of these that reports a spent budget.
structure Cut (caller : Caller) (returned : List Returned) (free strict : Course) (later : List Returned) : Prop where
  onwards : free.returned = returned ++ later
  unhalted : free.halt = none
  cut : strict.returned = returned ++ later.takeWhile (fun answer => !answer.spent)
  agrees : (∀ answer ∈ later, answer.spent = false) → strict.halt = none ∧ strict.site = free.site.under .abort
  ended : (∃ answer ∈ later, answer.spent = true) → EndedSpent caller strict

theorem cut_idle (site : Site) (caller : Caller) (returned : List Returned) :
    Cut caller returned ⟨returned, site.under .propagate, none⟩ ⟨returned, site.under .abort, none⟩ [] :=
  ⟨by simp, rfl, by simp, fun _ => ⟨rfl, rfl⟩, by simp⟩

theorem cut_answered (caller : Caller) (returned : List Returned) (free strict : Course) (answer : Returned)
    (later : List Returned) (unspent : answer.spent = false) (rest : Cut caller (returned ++ [answer]) free strict later) :
    Cut caller returned free strict (answer :: later) := by
  refine ⟨?_, rest.unhalted, ?_, ?_, ?_⟩
  · rw [rest.onwards, List.append_assoc]
    rfl
  · rw [rest.cut, List.append_assoc, List.takeWhile_cons_of_pos (by simp [unspent])]
    rfl
  · intro none
    exact rest.agrees fun other member => none other (List.mem_cons_of_mem answer member)
  · rintro ⟨other, member, spent⟩
    rcases List.mem_cons.mp member with same | further
    · rw [same, unspent] at spent
      cases spent
    · exact rest.ended ⟨other, further, spent⟩

theorem cut_spent (caller : Caller) (returned : List Returned) (free strict : Course) (answer : Returned)
    (later : List Returned) (spent : answer.spent = true) (onwards : free.returned = returned ++ [answer] ++ later)
    (unhalted : free.halt = none) (stopped : strict.returned = returned) (ended : EndedSpent caller strict) :
    Cut caller returned free strict (answer :: later) := by
  refine ⟨?_, unhalted, ?_, ?_, fun _ => ended⟩
  · rw [onwards, List.append_assoc]
    rfl
  · rw [stopped, List.takeWhile_cons_of_neg (by simp [spent]), List.append_nil]
  · intro none
    rw [none answer List.mem_cons_self] at spent
    cases spent

theorem run_cut (site : Site) (caller : Caller) (returned : List Returned) (calls : Nat) :
    ∃ later, Cut caller returned ((site.under .propagate).run caller returned calls)
      ((site.under .abort).run caller returned calls) later := by
  induction calls generalizing site returned with
  | zero => exact ⟨[], cut_idle site caller returned⟩
  | succ calls ih =>
      cases chosen : caller returned with
      | none =>
          simp only [run, chosen]
          exact ⟨[], cut_idle site caller returned⟩
      | some call =>
          simp only [run, chosen]
          cases site.call_meets call with
          | alike answer next unspent answered =>
              rw [answered, answered]
              obtain ⟨later, rest⟩ := ih next (returned ++ [answer])
              exact ⟨answer :: later, cut_answered caller returned _ _ answer later unspent rest⟩
          | spent production tree max building made told ended =>
              rw [told, ended]
              obtain ⟨later, rest⟩ := ih site (returned ++ [.built (.error (.budgetExceeded max))])
              refine ⟨_ :: later, cut_spent caller returned _ _ _ later rfl rest.onwards rest.unhalted rfl ?_⟩
              subst building
              exact ⟨production, tree, max, chosen, made, rfl, told⟩

theorem course_cut (limit : Option Nat) (caller : Caller) (calls : Nat) :
    Cut caller [] (course .propagate limit caller calls) (course .abort limit caller calls)
      (course .propagate limit caller calls).returned := by
  obtain ⟨later, cut⟩ := run_cut (start .abort limit) caller [] calls
  have all : later = (course .propagate limit caller calls).returned := cut.onwards.symm
  rw [← all]
  exact cut

-- Under either policy a course ends early only where a caller that is told of errors is told of a spent budget.
theorem abort_cuts_course_short (limit : Option Nat) (caller : Caller) (calls : Nat) :
    (course .abort limit caller calls).returned =
      (course .propagate limit caller calls).returned.takeWhile (fun answer => !answer.spent) ∧
    ((∀ answer ∈ (course .propagate limit caller calls).returned, answer.spent = false) →
      (course .abort limit caller calls).returned = (course .propagate limit caller calls).returned ∧
      (course .abort limit caller calls).halt = none ∧
      (course .abort limit caller calls).site = (course .propagate limit caller calls).site.under .abort) ∧
    ((∃ answer ∈ (course .propagate limit caller calls).returned, answer.spent = true) →
      ∃ production tree, caller (course .abort limit caller calls).returned = some (.build production) ∧
        production.tree (course .abort limit caller calls).site.table = .ok tree ∧
        (course .abort limit caller calls).halt.map Halt.message = some ("out of space: " ++ tree.shape)) ∧
    (∀ answer ∈ (course .abort limit caller calls).returned, answer.spent = false) ∧
    ∀ policy halt, (course policy limit caller calls).halt = some halt →
      policy = .abort ∧ ∃ call max, caller (course policy limit caller calls).returned = some call ∧
        ((course policy limit caller calls).site.under .propagate).call call =
          .ok (.built (.error (.budgetExceeded max)), (course policy limit caller calls).site.under .propagate) := by
  have cut := course_cut limit caller calls
  have returned := cut.cut
  rw [List.nil_append] at returned
  have unspent : ∀ answer ∈ (course .abort limit caller calls).returned, answer.spent = false := by
    intro answer member
    rw [returned] at member
    simpa using List.mem_takeWhile_imp member
  refine ⟨returned, fun none => ⟨?_, cut.agrees none⟩, fun some => ?_, unspent, ?_⟩
  · rw [returned]
    exact List.takeWhile_eq_self_iff.mpr fun answer member => by simp [none answer member]
  · obtain ⟨production, tree, _, chosen, made, halted, _⟩ := cut.ended some
    refine ⟨production, tree, chosen, made, ?_⟩
    rw [halted]
    rfl
  · intro policy halt halted
    cases policy with
    | propagate =>
        rw [cut.unhalted] at halted
        cases halted
    | abort =>
        refine ⟨rfl, ?_⟩
        by_cases some : ∃ answer ∈ (course .propagate limit caller calls).returned, answer.spent = true
        · obtain ⟨production, _, max, chosen, _, _, told⟩ := cut.ended some
          exact ⟨.build production, max, chosen, told⟩
        · have none : ∀ answer ∈ (course .propagate limit caller calls).returned, answer.spent = false := by
            intro answer member
            exact Bool.eq_false_iff.mpr fun spent => some ⟨answer, member, spent⟩
          rw [(cut.agrees none).1] at halted
          cases halted

end Site

end Frontend
