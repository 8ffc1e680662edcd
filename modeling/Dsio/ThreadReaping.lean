import Dsio.ThreadBackend

/-!
# `reap` on the thread backend

The oldest futures are waited for in order and then taken from the front, so the
contract holds under every timing of the pool.
-/

namespace Dsio

open Transition

namespace ThreadBackend

/-- The state in which a call of `reap` starts. -/
def startReap (backend : ThreadBackend) : Reaping := ⟨backend, .waiting 0⟩

/-- The completions of a reap so far. -/
def Point.out : Point → List Completion
  | .waiting _ => []
  | .draining out => out
  | .returned out => out

/-- The oldest `count` futures are ready. -/
def Ready (count : Nat) (pending : List Future) : Prop :=
  count ≤ pending.length ∧ ∀ future ∈ pending.take count, future.result.isSome

/-- An empty front is ready. -/
theorem Ready.zero (pending : List Future) : Ready 0 pending := ⟨Nat.zero_le _, by simp⟩

/-- One more finished future extends the ready front. -/
theorem Ready.succ {count : Nat} {pending : List Future} (ready : Ready count pending)
    {future : Future} (found : pending[count]? = some future) (done : future.result.isSome) :
    Ready (count + 1) pending := by
  obtain ⟨bound, same⟩ := List.getElem?_eq_some_iff.mp found
  refine ⟨bound, fun other member => ?_⟩
  rw [List.take_succ_eq_append_getElem bound, same] at member
  rcases List.mem_append.mp member with older | last
  · exact ready.2 other older
  · rw [List.mem_singleton.mp last]
    exact done

/-- Taking the first future off shortens the ready front by one. -/
theorem Ready.tail {count : Nat} {future : Future} {pending : List Future}
    (ready : Ready count (future :: pending)) : Ready (count - 1) pending := by
  cases count with
  | zero => exact .zero pending
  | succ count =>
      refine ⟨by simpa using ready.1, fun other member => ready.2 other ?_⟩
      rw [List.take_succ_cons]
      exact List.mem_cons_of_mem _ member

/-- Futures stay ready. -/
theorem Ready.finish {count : Nat} {pending : List Future} (ready : Ready count pending)
    (index bytes error : Nat) : Ready count (finish index bytes error pending) := by
  refine ⟨by simpa [ThreadBackend.finish] using ready.1, fun future member => ?_⟩
  obtain ⟨position, bound, same⟩ := List.mem_take_iff_getElem.mp member
  subst same
  have inside : position < pending.length := by
    simp only [ThreadBackend.finish, List.length_modify] at bound
    omega
  have before := ready.2 pending[position]
    (List.mem_take_iff_getElem.mpr ⟨position, by omega, rfl⟩)
  simp only [ThreadBackend.finish, List.getElem_modify]
  split
  · rfl
  · exact before

/-- What holds at every point of a `reap`. -/
structure ReapInv (inFlight size min : Nat) (state : Reaping) : Prop where
  total : state.point.out.length + state.backend.pending.length = inFlight
  fits : state.point.out.length ≤ size
  waited : ∀ index, state.point = .waiting index →
    index ≤ min ∧ Ready index state.backend.pending
  drains : ∀ out, state.point = .draining out →
    Ready (min - out.length) state.backend.pending
  returned : ∀ out, state.point = .returned out → min ≤ out.length

/-- A call has reported nothing yet. -/
theorem reapInv_start (backend : ThreadBackend) (size min : Nat) :
    ReapInv backend.inFlight size min backend.startReap where
  total := by simp [startReap, Point.out, inFlight]
  fits := Nat.zero_le _
  waited := by
    rintro index ⟨⟩
    exact ⟨Nat.zero_le _, .zero _⟩
  drains := by simp [startReap]
  returned := by simp [startReap]

/-- Every step keeps the reported and the pending completions at the number in flight. -/
theorem ReapInv.step {inFlight size min : Nat} {before after : Reaping}
    (clamped : min ≤ Min.min size inFlight) (inv : ReapInv inFlight size min before)
    (transition : Step size min before after) : ReapInv inFlight size min after := by
  have clampedSize : min ≤ size := Nat.le_trans clamped (Nat.min_le_left _ _)
  obtain ⟨total, fits, waited, drains, returned⟩ := inv
  obtain ⟨backend, point⟩ := before
  cases transition with
  | pool bytes error found running =>
      exact ⟨by simpa [finish] using total, fits,
        fun index at' => ⟨(waited index at').1, (waited index at').2.finish _ bytes error⟩,
        fun out at' => (drains out at').finish _ bytes error, returned⟩
  | caller moves =>
      cases point with
      | waiting index =>
          obtain ⟨bound, ready⟩ := waited index rfl
          simp only [reapStep] at moves
          split at moves
          · next more =>
            split at moves
            · next request completion found =>
              cases moves
              refine ⟨total, fits, ?_, by simp, by simp⟩
              rintro next ⟨⟩
              exact ⟨more, ready.succ found rfl⟩
            · cases moves
          · next done =>
            cases moves
            refine ⟨total, fits, by simp, ?_, by simp⟩
            rintro out ⟨⟩
            have all : index = min := by omega
            simpa [all] using ready
      | draining out =>
          have ready := drains out rfl
          simp only [reapStep] at moves
          split at moves
          · next room =>
            split at moves
            · next completion pending request more =>
              cases moves
              rw [more] at ready total
              refine ⟨?_, by simpa [Point.out] using Nat.succ_le_of_lt room, by simp, ?_, by simp⟩
              · simp only [Point.out, List.length_append, List.length_cons, List.length_nil]
                  at total ⊢
                omega
              · rintro taken ⟨⟩
                have next := ready.tail
                rwa [List.length_append, List.length_singleton, ← Nat.sub_sub]
            · next none =>
              cases moves
              refine ⟨total, fits, by simp, by simp, ?_⟩
              rintro taken ⟨⟩
              -- the front is not ready, so the `min` oldest have all been taken
              by_contra short
              cases pending : backend.pending with
              | nil => simp [pending, Ready] at ready; omega
              | cons future rest =>
                  rw [pending] at ready
                  have front := ready.2 future
                    (List.mem_take_iff_getElem.mpr ⟨0, by simp; omega, rfl⟩)
                  obtain ⟨completion, found⟩ := Option.isSome_iff_exists.mp front
                  obtain ⟨request, result⟩ := future
                  subst found
                  exact none request completion rest pending
          · next full =>
            cases moves
            refine ⟨total, fits, by simp, by simp, ?_⟩
            rintro taken ⟨⟩
            omega
      | returned out => simp [reapStep] at moves

/-- The futures the pool has not finished. -/
def running (pending : List Future) : Nat := pending.countP fun future => future.result.isNone

/-- A read that ends leaves one less running. -/
theorem running_finish {pending : List Future} {index bytes error : Nat} {future : Future}
    (found : pending[index]? = some future) (unfinished : future.result = none) :
    running (finish index bytes error pending) < running pending := by
  induction pending generalizing index with
  | nil => simp at found
  | cons first rest ih =>
      cases index with
      | zero =>
          simp only [List.getElem?_cons_zero, Option.some.injEq] at found
          subst found
          simp [running, finish, unfinished]
      | succ index =>
          have lower := ih (by simpa using found)
          simp only [running, finish, List.modify_succ_cons, List.countP_cons] at lower ⊢
          omega

/-- The steps left of a `reap`, the pool's included. -/
def reapRank (min : Nat) (state : Reaping) : Nat :=
  running state.backend.pending + match state.point with
    | .waiting index => min - index + state.backend.pending.length + 2
    | .draining _ => state.backend.pending.length + 1
    | .returned _ => 0

/-- Every step of a reap, and every read that ends, brings its return nearer. -/
theorem reapRank_lt {size min : Nat} {before after : Reaping}
    (transition : Step size min before after) :
    reapRank min after < reapRank min before := by
  obtain ⟨backend, point⟩ := before
  cases transition with
  | @pool index future bytes error found unfinished =>
      have lower : running (finish index bytes error backend.pending) < running backend.pending :=
        running_finish found unfinished
      have length : (finish index bytes error backend.pending).length = backend.pending.length :=
        List.length_modify ..
      simp only [reapRank, length]
      omega
  | caller moves =>
      cases point with
      | waiting index =>
          simp only [reapStep] at moves
          split at moves
          · split at moves
            · cases moves
              simp only [reapRank]
              omega
            · cases moves
          · cases moves
            simp only [reapRank]
            omega
      | draining out =>
          simp only [reapStep] at moves
          split at moves
          · split at moves
            · next more =>
              cases moves
              simp [reapRank, more, running]
            · cases moves
              simp only [reapRank]
              omega
          · cases moves
            simp only [reapRank]
            omega
      | returned out => simp [reapStep] at moves

/-- The pool finishing the future a wait blocks on, or the caller, can move. -/
theorem ReapInv.progress {inFlight size min : Nat} {state : Reaping}
    (clamped : min ≤ Min.min size inFlight) (inv : ReapInv inFlight size min state)
    (unfinished : ¬ ∃ out, state.point = .returned out) : ∃ after, Step size min state after := by
  obtain ⟨backend, point⟩ := state
  have clampedFlight : min ≤ inFlight := Nat.le_trans clamped (Nat.min_le_right _ _)
  cases point with
  | waiting index =>
      by_cases more : index < min
      · have total := inv.total
        simp only [Point.out, List.length_nil] at total
        have bound : index < backend.pending.length := by omega
        have found : backend.pending[index]? = some backend.pending[index] := by simp [bound]
        generalize backend.pending[index] = future at found
        obtain ⟨request, result⟩ := future
        cases result with
        | none => exact ⟨_, .pool 0 0 found rfl⟩
        | some completion => exact ⟨_, .caller (by simp only [reapStep, more, found]; rfl)⟩
      · exact ⟨_, .caller (by simp only [reapStep, more]; rfl)⟩
  | draining out =>
      have moves : reapStep size min ⟨backend, .draining out⟩ ≠ none := by
        simp only [reapStep]
        split
        · split <;> simp
        · simp
      obtain ⟨after, moves⟩ := Option.ne_none_iff_exists'.mp moves
      exact ⟨after, .caller moves⟩
  | returned out => exact absurd ⟨out, rfl⟩ unfinished

/-- Every schedule of `reap(out, min)` returns, with the contract kept. -/
def KeepsContract (backend : ThreadBackend) (size min : Nat) : Prop :=
  let step := Step size (clamp backend size min)
  (∀ state out, Reaches step backend.startReap state → state.point = .returned out →
    ReapContract backend.inFlight size min out.length state.backend.inFlight) ∧
  Inevitable step (fun state => ∃ out, state.point = .returned out) backend.startReap

/-- Every schedule of the reads and of the call keeps the contract of `reap`. -/
theorem keepsContract (backend : ThreadBackend) (size min : Nat) :
    backend.KeepsContract size min := by
  have clamped : clamp backend size min ≤ Min.min size backend.inFlight := by
    simp only [clamp, inFlight]
    omega
  have start := reapInv_start backend size (clamp backend size min)
  constructor
  · intro state out run returned
    have inv := run.preserves (fun inv transition => inv.step clamped transition) start
    have total := inv.total
    have fits := inv.fits
    have enough := inv.returned out returned
    rw [returned, Point.out] at total fits
    constructor <;> simp only [inFlight, clamp] at * <;> omega
  · exact .ofRank wellFounded_lt (reapRank _) (fun inv transition => inv.step clamped transition)
      (fun state inv unfinished => inv.progress clamped unfinished)
      (fun _ _ transition => reapRank_lt transition) start

end ThreadBackend

end Dsio
