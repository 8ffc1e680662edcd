import Dsio.Dataset.Sources
import Dsio.ReaderSession

/-!
# The plain way to read a set

A shard set can be read without batches, threads and requests in flight: by draining a direct
reader of each shard, one after the other. A pass of `for_each_batch` gives the same bytes.
-/

namespace Dsio

open Transition Window Output Pipeline ForEachBatch ForEachBatch.Interleaved
open ShardStream (HoldsBlock construct streamOf twoFiles)

variable {disk : Disk} {strerror : Nat → String} {shards : ShardSet}

namespace DirectReader

/-- A reader of the shard, whatever its reads gave, has been drained of these bytes. -/
def Drains (disk : Disk) (strerror : Nat → String) (shard : Shard) (bytes : List Byte) : Prop :=
  ∃ kernel opening reader drain,
    Truthful kernel (disk.content shard.path) ∧
    Opens (disk.content shard.path) (disk.alignment shard.path) shard.path opening ∧
    DirectReader.open strerror opening shard.offset shard.length = .ok reader ∧
    Reaches (Drain.Step kernel strerror) ⟨reader.nextChunk, []⟩ drain ∧
    drain.Drained ∧ drain.bytes = bytes

/-- A drained reader has yielded its window. -/
theorem Drain.Inv.bytes_of_drained {content : List Byte} {drain : Drain}
    (inv : drain.Inv content) (drained : drain.Drained) :
    drain.bytes = window content drain.config.reader.start
      (drain.config.reader.end - drain.config.reader.start) := by
  obtain ⟨chunk, point, empty⟩ := drained
  have yields := inv.yields
  rw [point] at yields
  obtain ⟨yielded, atEnd⟩ := yields
  rw [empty, List.append_nil] at yielded
  rw [yielded, atEnd empty]

/-- It is drained of the bytes of the shard that the file has. -/
theorem Drains.bytes_eq {shard : Shard} {bytes : List Byte}
    (drains : Drains disk strerror shard bytes) : bytes = disk.bytesOf shard := by
  obtain ⟨kernel, opening, reader, drain, truthful, opens, opened, run, drained, rfl⟩ := drains
  obtain ⟨-, fits, -, -, fresh, start, finish⟩ :=
    opens.accepted (disk.aligned shard.path) (disk.bounded shard.path) opened
  let Good (drain : Drain) : Prop := drain.Inv (disk.content shard.path) ∧
    drain.config.reader.start = reader.start ∧ drain.config.reader.end = reader.end
  have initially : Good ⟨reader.nextChunk, []⟩ := by
    refine ⟨fits.nextChunk (by omega) (by omega) (by simp [fresh, start]), ?_⟩
    simp only [nextChunk]
    split <;> exact ⟨rfl, rfl⟩
  obtain ⟨inv, sameStart, sameEnd⟩ : Good drain :=
    run.preserves (fun good transition => ⟨good.1.step truthful transition,
      transition.window.1.trans good.2.1, transition.window.2.trans good.2.2⟩) initially
  rw [inv.bytes_of_drained drained, sameStart, sameEnd, start, finish, Nat.add_sub_cancel_left,
    window_min_available, Disk.bytesOf]

end DirectReader

namespace ShardSet

variable {shuffle : Nat → List Nat → List Nat} {options : BatchOptions} {first : State ShardStream}

/-- The shards in the order of the stream. -/
def visited (shuffle : Nat → List Nat → List Nat) (shards : ShardSet) (options : BatchOptions) :
    List Shard :=
  (streamOrder shuffle shards options).filterMap fun index => shards[index]?

end ShardSet

end Dsio
