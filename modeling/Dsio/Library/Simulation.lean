import Dsio.Library.Transition

/-!
# Simulations

One system simulates another when every step of the finer one is a step of the coarser
one, or none. Runs are carried over, and so is a goal that every schedule of the coarser
system arrives at, when the finer one gets through its own steps.
-/

namespace Transition

universe u v w

variable {State : Type u} {Image : Type v} {step : State → State → Prop}
  {coarse : Image → Image → Prop} {related : State → Image → Prop}

/-- A step from a related state leads to a state related to the same image, or to one a
step away from it. -/
def Simulates (step : State → State → Prop) (coarse : Image → Image → Prop)
    (related : State → Image → Prop) : Prop :=
  ∀ {before after image}, related before image → step before after →
    related after image ∨ ∃ next, coarse image next ∧ related after next

/-- Runs are carried over. -/
theorem Simulates.reaches (simulates : Simulates step coarse related) {start finish : State}
    {image : Image} (initially : related start image) (run : Reaches step start finish) :
    ∃ last, Reaches coarse image last ∧ related finish last := by
  induction run with
  | refl => exact ⟨image, .refl, initially⟩
  | tail _ transition ih =>
      obtain ⟨last, reached, holds⟩ := ih
      rcases simulates holds transition with same | ⟨next, moves, holds⟩
      · exact ⟨last, reached, same⟩
      · exact ⟨next, reached.tail moves, holds⟩

/-- A goal of the coarser system is one of the finer: steps that the coarser one does not
see lower a rank, and short of the goal there always is a step. -/
theorem Inevitable.of_simulation {Rank : Type w} {lower : Rank → Rank → Prop}
    (wellFounded : WellFounded lower) (rank : State → Rank) {goal : Image → Prop}
    (simulates : ∀ {before after image}, related before image → ¬ goal image →
      step before after → related after image ∧ lower (rank after) (rank before) ∨
        ∃ next, coarse image next ∧ related after next)
    (progress : ∀ {state image}, related state image → ¬ goal image → ∃ next, step state next)
    {image : Image} (inevitable : Inevitable coarse goal image) {state : State}
    (holds : related state image) :
    Inevitable step (fun state => ∃ image, related state image ∧ goal image) state := by
  induction inevitable generalizing state with
  | now arrived => exact .now ⟨_, holds, arrived⟩
  | @later image _ _ ih =>
      by_cases arrived : goal image
      · exact .now ⟨image, holds, arrived⟩
      -- within one step of the coarser system, the induction is on the rank
      have accessible := wellFounded.apply (rank state)
      generalize measured : rank state = value at accessible
      induction accessible generalizing state with
      | intro value _ inner =>
          refine .later (progress holds arrived) fun next transition => ?_
          rcases simulates holds arrived transition with ⟨same, below⟩ | ⟨after, moves, same⟩
          · exact inner _ (measured ▸ below) same rfl
          · exact ih after moves same

end Transition
