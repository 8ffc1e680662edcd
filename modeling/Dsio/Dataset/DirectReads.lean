import Dsio.Dataset.BackedSafety
import Dsio.ManifestGrammar

/-!
# Direct reads

A file that is open with `O_DIRECT` refuses a read that is not of whole blocks from the start
of one. The shards of a loaded set start at multiples of an alignment, and a pass over them
reads whole blocks from there on: it never asks for anything that is refused.
-/

namespace Dsio

open Transition Window

/-- `EINVAL`. -/
def einval : Nat := 22

/-- The reads of a file that is open with `O_DIRECT`. -/
def Kernel.direct (block : Nat) (kernel : Kernel) : Kernel := fun offset length answer =>
  if block ∣ offset ∧ block ∣ length then kernel offset length answer else answer = .error einval

/-- Whole blocks, from the start of one. -/
def ReadRequest.Blocks (block : Nat) (request : ReadRequest) : Prop :=
  block ∣ request.offset ∧ block ∣ request.dst.size

/-- A request in whole blocks is served as it would be without `O_DIRECT`. -/
theorem ReadRequest.Blocks.direct {block : Nat} {request : ReadRequest}
    (blocks : request.Blocks block) (kernel : Kernel) (answer : Except Nat (List Byte)) :
    kernel.direct block request.offset request.dst.size answer ↔
      kernel request.offset request.dst.size answer :=
  iff_of_eq (if_pos blocks)

/-! ## Backends -/

section

variable {kernel other : Kernel} {dst : Span} {data : List Byte}

/-- A kernel that gives these requests the same answers. -/
def Answers (kernel other : Kernel) (requests : List ReadRequest) : Prop :=
  ∀ request ∈ requests, ∀ answer, kernel request.offset request.dst.size answer →
    other request.offset request.dst.size answer

/-- Kernels that answer the waiting requests alike serve them alike. -/
theorem ThreadBackend.Serves.congr {backend after : ThreadBackend}
    (serves : Serves kernel backend dst data after)
    (same : Answers kernel other backend.waiting) : Serves other backend dst data after := by
  cases serves with
  | @read index future answer completion found running interruptions answers once =>
      have waits : future.request ∈ backend.waiting := by
        refine List.mem_map.mpr ⟨future, List.mem_filter.mpr ⟨List.mem_of_getElem? found, ?_⟩, rfl⟩
        rw [running, Option.isNone_none]
      exact .read found running interruptions (same _ waits answer answers) once

/-- Kernels that answer the waiting requests alike serve them alike. -/
theorem UringBackend.Serves.congr {backend after : UringBackend} (sizes : Sizes backend)
    (serves : Serves kernel backend dst data after)
    (same : Answers kernel other backend.waiting) : Serves other backend dst data after := by
  cases serves with
  | @read index entry answer found answers =>
      have queued : entry ∈ backend.queued := List.mem_append_left _ (List.mem_of_getElem? found)
      have length := sizes.whole entry queued
      rw [length] at answers
      refine .read found ?_
      rw [length]
      exact same (requestOf entry) (List.mem_map.mpr ⟨entry, queued, rfl⟩) answer answers

/-- What a backend reads depends on the answers to the requests it has not read yet. -/
theorem backendOf_serves_congr {strerror : Nat → String} {fails short : Prop}
    {backend after : (backendOf strerror fails short).Backend}
    (holds : (backendContract strerror fails short).Holds backend)
    (serves : (backendOf strerror fails short).serves kernel backend dst data after)
    (same : Answers kernel other ((backendContract strerror fails short).waiting backend)) :
    (backendOf strerror fails short).serves other backend dst data after := by
  rcases backend with uring | threads
  · rcases after with after | after
    · exact UringBackend.Serves.congr holds serves same
    · exact serves.elim
  · rcases after with after | after
    · exact serves.elim
    · exact ThreadBackend.Serves.congr serves same

end

/-! ## Streams -/

namespace ShardStream

variable {disk : Disk} {start : ShardStream}

/-- The requests for a shard that starts a block are of whole blocks. -/
theorem carries_blocks (fits : BlocksFit disk start)
    (aligned : ∀ place, disk.alignment (start.shardAt place).path ∣ (start.shardAt place).offset) :
    Carries disk start fun stream request =>
      request.Blocks (disk.alignment stream.file.path) where
  planned := by
    intro stream request sound stems isOpen member
    obtain ⟨-, blocks, -, count, offset⟩ := sound.wellFormed stems fits isOpen member
    have opened := sound.opened isOpen
    have begins := aligned stream.next
    rw [← stems.shardAt, ← opened.path, ← opened.block] at begins
    rw [ReadRequest.Blocks, ← opened.block, offset]
    exact ⟨Nat.dvd_add begins (Nat.dvd_mul_left ..), blocks⟩
  frame := by
    intro stream after request file _ before
    rwa [file]

end ShardStream

/-! ## Passes over a loaded set -/

section

open ShardStream (HoldsBlock)
open ForEachBatch ForEachBatch.Interleaved Pipeline

variable {environment : Environment} {shuffle : Nat → List Nat → List Nat} {shards : ShardSet}
variable {options : BatchOptions} {callback : Nat → CallbackResult} {first : State ShardStream}
variable {manifest : String} {alignment : Nat} {text : Text}

/-- Every shard of a set that loads starts at a multiple of the alignment. -/
theorem loaded_aligned (nonzero : 0 < alignment)
    (loads : ShardSet.load manifest alignment (some ⟨text, false⟩) = some (.ok shards)) :
    ∀ shard ∈ shards, alignment ∣ shard.offset := by
  rcases conforms_or_first alignment (Delimited.records '\n' text) with
    conforms | ⟨before, line, after, split, conforms, wrong⟩
  · obtain ⟨entries, grammar⟩ := conforms.exists_entries
    rw [load_of_grammar nonzero manifest grammar] at loads
    cases loads
    intro shard member
    obtain ⟨⟨path, offset, length⟩, inside, rfl⟩ := List.mem_map.mp member
    obtain ⟨line, -, stands⟩ := exists_line grammar (List.reduceOption_mem_iff.mp inside)
    exact stands.bounds.2.1
  · obtain ⟨message, fails⟩ := load_of_violation nonzero manifest split conforms wrong
    rw [fails] at loads
    cases loads

/-- The shards of the order begin at blocks. -/
theorem aligned_construct {disk : Disk} {order : List Nat}
    (aligned : ∀ shard ∈ shards, disk.alignment shard.path ∣ shard.offset) (place : Nat) :
    disk.alignment ((ShardStream.construct shards order options).shardAt place).path ∣
      ((ShardStream.construct shards order options).shardAt place).offset := by
  simp only [ShardStream.shardAt, ShardStream.construct]
  cases found : (order[place]?).bind fun index => shards[index]? with
  | none => exact Nat.dvd_zero _
  | some shard =>
      obtain ⟨index, -, here⟩ := Option.bind_eq_some_iff.mp found
      exact aligned shard (List.mem_of_getElem? here)

/-- Over the backends of the library, and whatever fails, a pass over a set that was loaded
with a multiple of the blocks of its files asks for whole blocks only, from the start of one.
What `O_DIRECT` refuses makes no difference to it. -/
theorem loaded_set_reads_blocks {strerror : Nat → String} {short : Prop}
    (nonzero : 0 < alignment)
    (loads : ShardSet.load manifest alignment (some ⟨text, false⟩) = some (.ok shards))
    (multiple : ∀ shard ∈ shards, environment.disk.alignment shard.path ∣ alignment)
    (shuffles : ∀ seed order, (shuffle seed order).Perm order)
    (begins : begin shuffle shards options = .ok first)
    (blocks : ∀ shard ∈ shards, HoldsBlock options (environment.disk.alignment shard.path))
    (narrow : options.segmentBytes < 2 ^ 32) {interleaved}
    (run : Reaches (Step (libraryReader strerror short environment options) callback)
      (overBackends _ first) interleaved)
    {stream : ShardStream} {backend : (backendOf strerror environment.fails short).Backend}
    (now : interleaved.stream Backed.Config.backed = ⟨stream, some backend⟩) :
    (∀ request ∈ (backendContract strerror environment.fails short).waiting backend,
      request.Blocks (environment.disk.alignment stream.file.path)) ∧
    ∀ kernel dst data after,
      (backendOf strerror environment.fails short).serves
          (Kernel.direct (environment.disk.alignment stream.file.path) kernel)
          backend dst data after ↔
        (backendOf strerror environment.fails short).serves kernel backend dst data after := by
  obtain ⟨ideal, -, agrees, kept⟩ := joint_of_reaches shuffles begins blocks narrow run
  have permutes : (streamOrder shuffle shards options).Perm (List.range shards.length) :=
    streamOrder_perm shuffles
  obtain ⟨-, -, -, rfl⟩ := begin_eq_ok begins
  have aligned := fun shard member =>
    (multiple shard member).trans (loaded_aligned nonzero loads shard member)
  have flying := kept.flying (ShardStream.sound_construct ..)
    (ShardStream.carries_blocks (ShardStream.blocksFit_construct permutes blocks)
      (aligned_construct aligned)) (ShardStream.flying_of_no_backend rfl)
  obtain ⟨taken, refines⟩ := agrees.refines
  rw [now] at refines
  have path : stream.file = (ideal.stream ShardStream.Config.stream).file := by
    have frame := congrArg ShardStream.file refines.frame
    exact frame
  obtain ⟨done, waits⟩ := refines.waiting_subset
  have whole : ∀ request ∈ (backendContract strerror environment.fails short).waiting backend,
      request.Blocks (environment.disk.alignment stream.file.path) := by
    intro request waiting
    rw [path]
    exact flying request (waits.mem_iff.mpr (List.mem_append_left _ waiting))
  refine ⟨whole, fun kernel dst data after => ⟨fun serves => ?_, fun serves => ?_⟩⟩
  · exact backendOf_serves_congr refines.holds serves fun request waiting answer =>
      ((whole request waiting).direct kernel answer).mp
  · exact backendOf_serves_congr refines.holds serves fun request waiting answer =>
      ((whole request waiting).direct kernel answer).mpr

/-- The first request of a pass over two files, loaded with blocks of 2. -/
theorem twoShards_reads_blocks : ∃ interleaved,
    Reaches (Step (libraryReader toString False (honest ShardStream.twoFiles) inPairs)
      fun _ => .proceed)
      (overBackends _ (start 2 (ShardStream.construct Interleaved.twoShards [0, 1] inPairs)))
      interleaved ∧
    interleaved.stream Backed.Config.backed = ⟨firstFilled.1, some (Sum.inr firstQueued)⟩ ∧
    ∀ request ∈ (backendContract toString True False).waiting (Sum.inr firstQueued),
      request.Blocks 2 := by
  obtain ⟨interleaved, run, now⟩ := twoShards_queued
  have loads : ShardSet.load "m.tsv" 2 (some ⟨"a\t0\t3\nb\t0\t2\n".toList, false⟩) =
      some (.ok Interleaved.twoShards) := by decide
  have multiple : ∀ shard ∈ Interleaved.twoShards,
      ShardStream.twoFiles.alignment shard.path ∣ 2 := by decide
  exact ⟨interleaved, run, now, (loaded_set_reads_blocks (by decide) loads multiple
    (fun _ order => .refl order) rfl twoShards_fit.2 (by decide) run now).1⟩

end

end Dsio
