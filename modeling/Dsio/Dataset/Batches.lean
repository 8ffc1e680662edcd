import Dsio.Dataset.Completeness
import Dsio.Dataset.InStep

/-!
# The batches handed to the callback

However a call ends, the callback has seen non-empty batches of the full size from the
front of the stream; only the one that ends the stream may be shorter.
-/

namespace Dsio.ForEachBatch

open Transition Window Pipeline ShardStream

variable {shuffle : Nat → List Nat → List Nat} {shards : ShardSet} {options : BatchOptions}
variable {environment : Environment} {callback : Nat → CallbackResult}
variable {first state : State ShardStream}

/-- The batches of a log are the reads that got something. -/
theorem batches_logOf (outs : List (List Byte)) :
    batches (logOf outs) = outs.filter (!·.isEmpty) := by
  induction outs with
  | nil => rfl
  | cons out outs ih =>
      by_cases empty : out = []
      · simpa [logOf, batches, ReadResult.batch?, empty] using ih
      · simpa [logOf, batches, ReadResult.batch?, empty] using ih

/-- The worker reads pieces of the stream, whatever ends the log. -/
theorem Tracks.pieces {initial : ShardStream}
    (tracks : Tracks environment options initial state)
    (initially : Between environment.disk initial initial)
    (full : environment.reports = fullReads) (fits : BlocksFit environment.disk initial)
    (positive : 0 < options.batchBytes) :
    Pieces options.batchBytes (initial.unread environment.disk) (batches state.log) := by
  have pieces {outs : List (List Byte)} {stream : ShardStream}
      (calls : Calls environment initial (List.replicate outs.length options.batchBytes) outs
        stream) :
      Pieces options.batchBytes (initial.unread environment.disk) (batches (logOf outs)) := by
    obtain ⟨-, cuts, -⟩ := initially.calls full fits calls
    exact pieces_cut positive outs.length _ (by rw [batches_logOf, ← cuts])
  cases tracks with
  | reading outs logged calls => exact logged ▸ pieces calls
  | failed outs stream error logged calls =>
      rw [logged, batches_append, batches_singleton_error, List.append_nil]
      exact pieces calls

/-- In every state of every call, with reads that are full up to the end of the file:
every batch handed to the callback is non-empty and of the full size, or it is the last
and the end of the stream, and together they are the front of the stream. -/
theorem batches_are_pieces {disk : Disk}
    (shuffles : ∀ seed order, (shuffle seed order).Perm order)
    (begins : begin shuffle shards options = .ok first)
    (noOverflow : ∀ shard ∈ shards, shard.NoOverflow)
    (blocks : ∀ shard ∈ shards, HoldsBlock options (disk.alignment shard.path))
    (run : Reaches (Step (honest disk) options callback) first state) :
    (∀ before batch after, state.delivered = before ++ batch :: after →
      batch ≠ [] ∧ (batch.length = options.batchBytes ∨
        batch.length < options.batchBytes ∧ after = [] ∧ state.delivered.flatten =
          streamOf disk shards (streamOrder shuffle shards options))) ∧
    state.delivered.flatten <+: streamOf disk shards (streamOrder shuffle shards options) := by
  have permutes : (streamOrder shuffle shards options).Perm (List.range shards.length) :=
    streamOrder_perm shuffles
  have tracks := Tracks.of_reaches begins run
  obtain ⟨positive, -, -, rfl⟩ := begin_eq_ok begins
  have logged : Pieces options.batchBytes
      (streamOf disk shards (streamOrder shuffle shards options)) (batches state.log) := by
    rw [← unread_construct disk options noOverflow permutes]
    exact tracks.pieces (between_construct ..) rfl (blocksFit_construct permutes blocks) positive
  have delivered := logged.of_isPrefix (Inv.of_reaches run).called
  exact ⟨fun _ _ _ split => delivered.shape positive split, delivered.flatten_isPrefix⟩

/-- Two batches: a full one, and a short one at the end of the stream. -/
theorem shortShards_pieces : ∃ state : State ShardStream,
    state.delivered = [[1, 2, 3], [4, 5]] ∧
      state.delivered.flatten <+: streamOf twoFiles shortShards [0, 1] ∧
      state.delivered.flatten = streamOf twoFiles shortShards [0, 1] := by
  have begins : begin (fun _ order => order) shortShards (inBatches 3) =
      .ok (start (inBatches 3).prefetch (construct shortShards [0, 1] (inBatches 3))) := rfl
  obtain ⟨between, after, full, short⟩ := shortShards_reads 3
  have received : Reaches (Step (honest twoFiles) (inBatches 3) fun _ => .proceed)
      (start (inBatches 3).prefetch (construct shortShards [0, 1] (inBatches 3))) _ :=
    .single (.worker rfl)
  have first := (received.tail (.read rfl full)).tail (.worker rfl)
  have second := ((first.tail (.worker rfl)).tail (.read rfl short)).tail (.worker rfl)
  have called := ((second.tail (.consumer rfl)).tail (.consumer rfl)).tail (.consumer rfl)
  have pieces := batches_are_pieces (fun _ order => .refl order) begins
    (fun shard member => (shortShards_hold 3 shard member).1)
    (fun shard member => (shortShards_hold 3 shard member).2) (called.tail (.consumer rfl))
  rcases (pieces.1 [[1, 2, 3]] [4, 5] [] rfl).2 with filled | ⟨-, -, whole⟩
  · exact absurd filled (by decide)
  · exact ⟨_, rfl, pieces.2, whole⟩

end Dsio.ForEachBatch
