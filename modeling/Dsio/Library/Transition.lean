import Mathlib.Logic.Relation
import Mathlib.Order.WellFounded

/-!
# Reachability and inevitability

A transition system is a relation between states. `Reaches` is its reflexive
transitive closure and `Reaches.preserves` is the invariant rule. `Inevitable`
says that every schedule, however it resolves the choices of the relation, gets
to a goal after finitely many steps; `Inevitable.ofRank` derives it from a
well-founded rank together with progress.
-/

namespace Transition

universe u v

variable {State : Type u} {step : State → State → Prop}

/-- `finish` is reached from `start` in finitely many steps. -/
abbrev Reaches (step : State → State → Prop) (start finish : State) : Prop :=
  Relation.ReflTransGen step start finish

/-- The invariant rule: what one step preserves, a whole run preserves. -/
theorem Reaches.preserves {holds : State → Prop} {start finish : State}
    (run : Reaches step start finish)
    (preserved : ∀ {before after}, holds before → step before after → holds after)
    (initially : holds start) : holds finish := by
  induction run with
  | refl => exact initially
  | tail _ transition ih => exact preserved ih transition

/-- A state no step leaves. -/
def Stuck (step : State → State → Prop) (state : State) : Prop :=
  ¬ ∃ next, step state next

/-- Every schedule from this state arrives at the goal after finitely many steps,
and none gets stuck on the way. -/
inductive Inevitable (step : State → State → Prop) (goal : State → Prop) : State → Prop where
  | now {state} (arrived : goal state) : Inevitable step goal state
  | later {state} (progress : ∃ next, step state next)
      (all : ∀ next, step state next → Inevitable step goal next) : Inevitable step goal state

namespace Inevitable

variable {goal : State → Prop}

/-- Some run realizes an inevitable goal. -/
theorem exists_reaches {state : State} (inevitable : Inevitable step goal state) :
    ∃ finish, Reaches step state finish ∧ goal finish := by
  induction inevitable with
  | now arrived => exact ⟨_, .refl, arrived⟩
  | later progress _ ih =>
      obtain ⟨next, transition⟩ := progress
      obtain ⟨finish, run, arrived⟩ := ih next transition
      exact ⟨finish, .head transition run, arrived⟩

/-- A goal may be weakened along the states an invariant allows. -/
theorem weaken {weaker holds : State → Prop} {state : State}
    (inevitable : Inevitable step goal state) (initially : holds state)
    (preserved : ∀ {before after}, holds before → step before after → holds after)
    (implies : ∀ state, holds state → goal state → weaker state) :
    Inevitable step weaker state := by
  induction inevitable with
  | now arrived => exact .now (implies _ initially arrived)
  | later progress _ ih =>
      exact .later progress fun next transition =>
        ih next transition (preserved initially transition)

/-- The rank rule: under an invariant, a step from a state short of the goal
lowers a well-founded rank, and such a step exists. -/
theorem ofRank {Rank : Type v} {lower : Rank → Rank → Prop} (wellFounded : WellFounded lower)
    (rank : State → Rank) {holds : State → Prop} {state : State}
    (preserved : ∀ {before after}, holds before → step before after → holds after)
    (progress : ∀ state, holds state → ¬ goal state → ∃ next, step state next)
    (decreases : ∀ {before after}, holds before → ¬ goal before → step before after →
      lower (rank after) (rank before))
    (initially : holds state) : Inevitable step goal state := by
  classical
  have accessible := wellFounded.apply (rank state)
  generalize measured : rank state = value at accessible
  induction accessible generalizing state with
  | intro value _ ih =>
      by_cases arrived : goal state
      · exact .now arrived
      · refine .later (progress state initially arrived) fun next transition => ?_
        have below : lower (rank next) value := measured ▸ decreases initially arrived transition
        exact ih _ below (preserved initially transition) rfl

end Inevitable

/-- When every step lowers a well-founded rank, some run ends in a stuck state. -/
theorem exists_reaches_stuck {Rank : Type v} {lower : Rank → Rank → Prop}
    (wellFounded : WellFounded lower) (rank : State → Rank) (holds : State → Prop) {state : State}
    (preserved : ∀ {before after}, holds before → step before after → holds after)
    (decreases : ∀ {before after}, holds before → step before after →
      lower (rank after) (rank before))
    (initially : holds state) :
    ∃ finish, Reaches step state finish ∧ Stuck step finish := by
  classical
  have inevitable : Inevitable step (Stuck step) state :=
    .ofRank wellFounded rank preserved
      (fun _ _ moves => Classical.not_not.mp moves)
      (fun holds _ transition => decreases holds transition) initially
  exact inevitable.exists_reaches

end Transition
