import Mathlib.Data.List.Chain
import Dsio.Library.Transition

/-!
# Properties of whole runs

A run is the list of the states it passes. `Run.always_iff` is the exact rule for a
property of every state of a run: when only flawed steps break it, and each of them
does, it holds throughout exactly the runs without a flawed step.
-/

namespace Transition

universe u

variable {State : Type u} {step : State → State → Prop}

/-- From `start` a run passes through these states. -/
abbrev Run (step : State → State → Prop) (start : State) (passed : List State) : Prop :=
  (start :: passed).IsChain step

/-- The run takes no step of this kind. -/
abbrev Avoids (flawed : State → State → Prop) (start : State) (passed : List State) : Prop :=
  (start :: passed).IsChain fun before after => ¬ flawed before after

variable {start : State} {passed : List State}

/-- The states of a run are reached from its start. -/
theorem Run.reaches (run : Run step start passed) {state : State}
    (member : state ∈ start :: passed) : Reaches step start state := by
  induction passed generalizing start with
  | nil =>
      obtain rfl := List.mem_singleton.mp member
      exact .refl
  | cons next rest ih =>
      obtain ⟨transition, run⟩ := List.isChain_cons_cons.mp run
      rcases List.mem_cons.mp member with rfl | later
      · exact .refl
      · exact .head transition (ih run later)

/-- The invariant rule for the states a run passes, as far as its steps are not flawed. -/
theorem Run.preserves {holds : State → Prop} {flawed : State → State → Prop}
    (run : Run step start passed) (avoids : Avoids flawed start passed)
    (preserved : ∀ {before after}, holds before → step before after → ¬ flawed before after →
      holds after)
    (initially : holds start) : ∀ state ∈ start :: passed, holds state := by
  induction passed generalizing start with
  | nil => simpa using initially
  | cons next rest ih =>
      obtain ⟨transition, run⟩ := List.isChain_cons_cons.mp run
      obtain ⟨sound, avoids⟩ := List.isChain_cons_cons.mp avoids
      have later := ih run avoids (preserved initially transition sound)
      exact List.forall_mem_cons.mpr ⟨initially, later⟩

/-- The exact rule: `holds` is an invariant that implies `good`, which a flawed step
breaks and no other step does. -/
theorem Run.always_iff {holds good : State → Prop} {flawed : State → State → Prop}
    (run : Run step start passed) (initially : holds start)
    (implies : ∀ {state}, holds state → good state)
    (preserved : ∀ {before after}, holds before → step before after → ¬ flawed before after →
      holds after)
    (broken : ∀ {before after}, holds before → step before after → flawed before after →
      ¬ good after) :
    (∀ state ∈ start :: passed, good state) ↔ Avoids flawed start passed := by
  constructor
  · intro good
    induction passed generalizing start with
    | nil => exact List.isChain_singleton _
    | cons next rest ih =>
        obtain ⟨transition, run⟩ := List.isChain_cons_cons.mp run
        have sound : ¬ flawed start next := fun flaw =>
          broken initially transition flaw (good next (by simp))
        have later := ih run (preserved initially transition sound) fun state member =>
          good state (List.mem_cons_of_mem _ member)
        exact List.isChain_cons_cons.mpr ⟨sound, later⟩
  · intro avoids state member
    exact implies (run.preserves avoids preserved initially state member)

/-- The exact rule for flaws that the state they lead to shows: `good` holds throughout
exactly the runs that stay sound. -/
theorem Run.always_iff_always {holds good sound : State → Prop} (run : Run step start passed)
    (initially : holds start) (soundly : sound start)
    (implies : ∀ {state}, holds state → good state)
    (preserved : ∀ {before after}, holds before → step before after → sound after → holds after)
    (broken : ∀ {before after}, holds before → sound before → step before after → ¬ sound after →
      ¬ good after) :
    (∀ state ∈ start :: passed, good state) ↔ ∀ state ∈ start :: passed, sound state := by
  induction passed generalizing start with
  | nil => simp [implies initially, soundly]
  | cons next rest ih =>
      obtain ⟨transition, run⟩ := List.isChain_cons_cons.mp run
      constructor
      · intro always
        have good := (List.forall_mem_cons.mp always).2
        have kept : sound next := by
          by_contra flaw
          exact broken initially soundly transition flaw (good next (by simp))
        have later := (ih run (preserved initially transition kept) kept).mp good
        exact List.forall_mem_cons.mpr ⟨soundly, later⟩
      · intro always
        have all := (List.forall_mem_cons.mp always).2
        have kept : sound next := all next (by simp)
        have later := (ih run (preserved initially transition kept) kept).mpr all
        exact List.forall_mem_cons.mpr ⟨implies initially, later⟩

/-! ## What the steps of a run emit -/

universe v

/-- A run from `start`, with what its steps have emitted. -/
inductive Emits {Label : Type v} (step : State → State → Prop)
    (emit : State → State → List Label) (start : State) : List Label → State → Prop where
  | refl : Emits step emit start [] start
  | tail {emitted before after} (run : Emits step emit start emitted before)
      (transition : step before after) :
      Emits step emit start (emitted ++ emit before after) after

variable {Label : Type v} {emit : State → State → List Label} {finish : State}

/-- A run with labels is a run. -/
theorem Emits.reaches {emitted : List Label} (run : Emits step emit start emitted finish) :
    Reaches step start finish := by
  induction run with
  | refl => exact .refl
  | tail _ transition ih => exact ih.tail transition

/-- Every run has its labels. -/
theorem Reaches.emits (emit : State → State → List Label) (run : Reaches step start finish) :
    ∃ emitted, Emits step emit start emitted finish := by
  induction run with
  | refl => exact ⟨[], .refl⟩
  | tail _ transition ih =>
      obtain ⟨emitted, run⟩ := ih
      exact ⟨_, run.tail transition⟩

/-- A run that emits the states it comes to has passed through them. -/
theorem Emits.run (emits : Emits step (fun _ after => [after]) start passed finish) :
    Run step start passed ∧ (start :: passed).getLast? = some finish := by
  induction emits with
  | refl => exact ⟨List.isChain_singleton _, rfl⟩
  | @tail passed before after _ transition ih =>
      obtain ⟨run, last⟩ := ih
      refine ⟨?_, by rw [← List.cons_append, List.getLast?_concat]⟩
      rw [Run, ← List.cons_append, List.isChain_append]
      refine ⟨run, List.isChain_singleton _, fun state ends next first => ?_⟩
      obtain rfl : before = state := Option.some.inj (last.symm.trans ends)
      obtain rfl : after = next := Option.some.inj first
      exact transition

/-- The invariant rule for a state and what was emitted on the way to it. -/
theorem Emits.preserves {holds : List Label → State → Prop} {emitted : List Label}
    (run : Emits step emit start emitted finish)
    (preserved : ∀ {emitted before after}, holds emitted before → step before after →
      holds (emitted ++ emit before after) after)
    (initially : holds [] start) : holds emitted finish := by
  induction run with
  | refl => exact initially
  | tail _ transition ih => exact preserved ih transition

end Transition
