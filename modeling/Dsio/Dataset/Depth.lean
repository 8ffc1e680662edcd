import Dsio.Dataset.BackedSafety

/-!
# How deep the pipeline gets

The loop of `fill_pipeline` adds up the pending entries and the requests it has queued, and
what it has queued is pending already. So a fill closes half of the gap to `read_depth`, the
next one comes after an entry has been taken, and the gap never closes.
-/

namespace Dsio

open Transition Window

namespace ShardStream

variable {environment : Environment} {disk : Disk} {stream start : ShardStream} {depth : Nat}

/-- Each round of the loop counts for two. -/
theorem fillLoop_within (rounds : Nat) (stream : ShardStream) (requests : List ReadRequest)
    (within : stream.pending.length + requests.length ≤ stream.readDepth + 1) :
    (fillLoop rounds stream requests).1.pending.length +
      (fillLoop rounds stream requests).2.length ≤ stream.readDepth + 1 := by
  induction rounds generalizing stream requests with
  | zero => exact within
  | succ rounds ih =>
      rw [fillLoop]
      split
      · next guard =>
        cases taken : stream.takeFree with
        | none => exact within
        | some found =>
            obtain ⟨slot, after⟩ := found
            obtain ⟨free, rfl⟩ : ∃ free, after = { stream with free } := by
              simp only [takeFree, Option.map_eq_some_iff, Prod.mk.injEq] at taken
              obtain ⟨_, -, -, same⟩ := taken
              exact ⟨_, same.symm⟩
            refine ih (enqueue { stream with free } slot).2 _ ?_
            simp only [enqueue, List.length_append, List.length_singleton]
            omega
      · exact within

/-- A fill leaves half of the gap to the depth, rounded down, unless the window is queued to
its end or the slots have run out. -/
theorem Filled.halves {filled : ShardStream} {entries : List Pending}
    (fill : Filled stream filled entries) (saturated : Saturated filled entries.length)
    (loop : fillLoop stream.readDepth stream [] = (filled, entries.map stream.entryRequest))
    (bound : stream.pending.length ≤ stream.readDepth) :
    stream.pending.length + 2 * entries.length ≤ stream.readDepth + 1 ∧
      (stream.readDepth ≤ stream.pending.length + 2 * entries.length ∨
        filled.windowEnd ≤ filled.nextOffset ∨ true ∉ filled.free) := by
  have within := fillLoop_within stream.readDepth stream [] (by simp; omega)
  have queued : filled.pending.length = stream.pending.length + entries.length := by
    rw [fill.frame, List.length_append]
  have depth : filled.readDepth = stream.readDepth := by rw [fill.frame]
  rw [loop, List.length_map, queued] at within
  refine ⟨by omega, ?_⟩
  rcases saturated with deep | ended
  · exact .inl (by omega)
  · exact .inr ended

/-- At least half of the depth is pending, or there is nothing to queue or no slot for it. -/
def HalfFull (stream : ShardStream) : Prop :=
  stream.readDepth ≤ 2 * stream.pending.length ∨ stream.windowEnd ≤ stream.nextOffset ∨
    true ∉ stream.free

/-- How many slots are left at the points of a call. -/
def Point.spare : Point → Nat
  | .loop _ _ | .returned (.ok _) => 2
  | .await _ _ | .returned (.error _) => 1

structure Config.Slack (depth : Nat) (config : Config) : Prop where
  reads : config.stream.readDepth = depth
  room : config.stream.pending.length + config.point.spare ≤ max depth 2
  halfFull : ∀ size out, config.point = .await size out → config.stream.HalfFull

/-- A call begins with two slots to spare. -/
theorem slack_startRead (size : Nat) (reads : stream.readDepth = depth)
    (room : stream.pending.length + 2 ≤ max depth 2) : (startRead size stream).Slack depth := by
  obtain ⟨carry, carrySize, frame⟩ := flushCarry_frame size stream
  simp only [startRead, frame]
  exact ⟨reads, room, fun _ _ same => by cases same⟩

/-- Opening a shard queues nothing. -/
theorem openShard_pipeline (opening : Opening) (stream : ShardStream) :
    (stream.openShard opening).2.readDepth = stream.readDepth ∧
      (stream.openShard opening).2.pending = stream.pending := by
  obtain ⟨file, allocated, opened⟩ := opening
  cases file with
  | error error => exact ⟨rfl, rfl⟩
  | ok file =>
      obtain ⟨buffers, free, size, length, frame⟩ := prepareBuffers_frame allocated
        file.alignment (segmentOf stream.options file.alignment) stream
      simp only [openShard]
      generalize stream.prepareBuffers allocated file.alignment
        (segmentOf stream.options file.alignment) = prepared at frame ⊢
      obtain ⟨outcome, after⟩ := prepared
      cases frame
      cases outcome with
      | error => exact ⟨rfl, rfl⟩
      | ok => cases opened <;> exact ⟨rfl, rfl⟩

/-- Opening a shard keeps the slots to spare. -/
theorem Config.Slack.openShard {size : Nat} {out : List Byte}
    (slack : Config.Slack depth ⟨stream, .loop size out⟩) (opening : Opening) :
    (afterOpen size out (stream.openShard opening)).Slack depth := by
  obtain ⟨reads, pending⟩ := openShard_pipeline opening stream
  have same : stream.readDepth = depth := slack.reads
  have room : stream.pending.length + 2 ≤ max depth 2 := slack.room
  rw [← reads] at same
  rw [← pending] at room
  generalize stream.openShard opening = opened at same room ⊢
  obtain ⟨outcome, after⟩ := opened
  cases outcome with
  | error => exact ⟨same, Nat.le_of_succ_le room, fun _ _ point => by cases point⟩
  | ok => exact ⟨same, room, fun _ _ point => by cases point⟩

/-- A fill leaves a slot to spare. -/
theorem Config.Slack.fill {size : Nat} {out : List Byte}
    (slack : Config.Slack depth ⟨stream, .loop size out⟩)
    (bound : stream.pending.length ≤ stream.readDepth) (submission : Submission) :
    (afterFill size out (stream.fillPipeline submission)).Slack depth := by
  obtain ⟨filled, entries, fill, saturated, loop, handed⟩ := fillPipeline_spec submission stream
  obtain ⟨most, least⟩ := fill.halves saturated loop bound
  have reads : stream.readDepth = depth := slack.reads
  have room : stream.pending.length + 2 ≤ max depth 2 := slack.room
  have queued : filled.pending.length = stream.pending.length + entries.length := by
    rw [fill.frame, List.length_append]
  have same : filled.readDepth = depth := by rw [fill.frame, ← reads]
  have accepted (requests : List ReadRequest) :
      (afterFill size out (.ok (), filled.submit requests)).Slack depth := by
    simp only [afterFill]
    split
    · exact ⟨same, Nat.le_max_right .., fun _ _ point => by cases point⟩
    · refine ⟨same, ?_, fun _ _ _ => ?_⟩
      · show filled.pending.length + 1 ≤ max depth 2
        omega
      · rcases least with enough | ended
        · refine .inl ?_
          show filled.readDepth ≤ 2 * filled.pending.length
          omega
        · exact .inr ended
  rcases handed with ⟨-, handed⟩ | ⟨-, -, handed⟩ | ⟨error, taken, -, -, handed⟩
  · rw [handed]
    exact submit_nil filled ▸ accepted []
  · rw [handed]
    exact accepted _
  · rw [handed, fill.rollBack]
    exact ⟨reads, Nat.le_of_succ_le room, fun _ _ point => by cases point⟩

/-- Reaping takes nothing off the pipeline. -/
theorem awaitOne_pipeline (reaped : Reaped) (stream : ShardStream) :
    (stream.awaitOne reaped).2.readDepth = stream.readDepth ∧
      (stream.awaitOne reaped).2.pending.length = stream.pending.length ∧
      ((stream.awaitOne reaped).2.HalfFull ↔ stream.HalfFull) := by
  cases reaped with
  | failed | nothing => exact ⟨rfl, rfl, Iff.rfl⟩
  | completed index completion data =>
      have completed : ∃ backend buffers,
          stream.complete index data = { stream with backend, buffers } := by
        simp only [complete]
        split <;> exact ⟨_, _, rfl⟩
      obtain ⟨backend, buffers, same⟩ := completed
      simp only [awaitOne, same]
      cases marked : markDone completion { stream with backend, buffers } with
      | none => exact ⟨rfl, rfl, Iff.rfl⟩
      | some after =>
          simp only [markDone, Option.map_eq_some_iff] at marked
          obtain ⟨index, -, rfl⟩ := marked
          dsimp only
          split
          · exact ⟨rfl, rfl, Iff.rfl⟩
          · simp [HalfFull]

/-- A completion leaves the entries that are pending. -/
theorem Config.Slack.reap {size : Nat} {out : List Byte}
    (slack : Config.Slack depth ⟨stream, .await size out⟩) (reaped : Reaped) :
    (afterReap size out (stream.awaitOne reaped)).Slack depth := by
  obtain ⟨reads, pending, halfFull⟩ := awaitOne_pipeline reaped stream
  have same : stream.readDepth = depth := slack.reads
  have room : stream.pending.length + 1 ≤ max depth 2 := slack.room
  have half := halfFull.mpr (slack.halfFull _ _ rfl)
  rw [← reads] at same
  rw [← pending] at room
  generalize stream.awaitOne reaped = awaited at same room half ⊢
  obtain ⟨outcome, after⟩ := awaited
  cases outcome with
  | error => exact ⟨same, room, fun _ _ point => by cases point⟩
  | ok => exact ⟨same, room, fun _ _ _ => half⟩

/-- After a fill an entry is taken before the next one. -/
theorem Config.Slack.take {size : Nat} {out : List Byte} {entry : Pending}
    (slack : Config.Slack depth ⟨stream, .await size out⟩)
    (front : stream.pending.head? = some entry) :
    (afterTake entry size out (stream.takeFront entry (size - out.length))).Slack depth := by
  obtain ⟨rest, pending⟩ := List.head?_eq_some_iff.mp front
  obtain ⟨carry, carrySize, frame⟩ := stream.takeFront_frame entry (size - out.length)
  have same : (stream.takeFront entry (size - out.length)).2.2.readDepth = depth := by
    rw [frame]
    exact slack.reads
  have room : (stream.takeFront entry (size - out.length)).2.2.pending.length + 2 ≤
      max depth 2 := by
    have before : stream.pending.length + 1 ≤ max depth 2 := slack.room
    rw [pending, List.length_cons] at before
    rw [frame, pending, List.tail_cons]
    exact before
  generalize stream.takeFront entry (size - out.length) = taken at same room ⊢
  obtain ⟨copied, left, after⟩ := taken
  simp only [afterTake]
  split
  · exact ⟨same, room, fun _ _ point => by cases point⟩
  · split
    · exact ⟨same, Nat.le_max_right .., fun _ _ point => by cases point⟩
    · exact ⟨same, room, fun _ _ point => by cases point⟩

/-- Every step keeps the slots to spare. -/
theorem Config.Slack.step {before after : Config} (slack : before.Slack depth)
    (sound : before.Sound environment.disk) (transition : Step environment before after) :
    after.Slack depth := by
  cases transition with
  | finish => exact ⟨slack.reads, slack.room, fun _ _ point => by cases point⟩
  | openShard => exact slack.openShard _
  | fill => exact slack.fill (ShardStream.Sound.bound sound) _
  | reap => exact slack.reap _
  | take front => exact slack.take front

/-- Fewer entries than the depth are pending. -/
theorem Config.Slack.pending_lt {config : Config} (slack : config.Slack depth)
    (deep : 2 ≤ depth) : config.stream.pending.length < depth := by
  have room := slack.room
  have spare : 1 ≤ config.point.spare := by
    simp only [Point.spare]
    split <;> omega
  omega

/-- There are slots to spare at every point of every call. -/
theorem Visits.slack {config : Config} (visits : Visits environment start config)
    (sound : Sound environment.disk start) (reads : start.readDepth = depth)
    (empty : start.pending = []) : config.Slack depth := by
  have good : config.Sound environment.disk ∧ config.Slack depth := by
    refine visits.preserves (fun stream => ShardStream.Sound environment.disk stream ∧
        stream.readDepth = depth ∧ stream.pending.length + 2 ≤ max depth 2)
      (fun config => config.Sound environment.disk ∧ config.Slack depth)
      ⟨sound, reads, by simp [empty]⟩ (fun all => ?_) (fun good transition => ?_)
      (fun good => ⟨good.1, good.2.reads, good.2.room⟩)
    · exact ⟨all.1.startRead _, slack_startRead _ all.2.1 all.2.2⟩
    · exact ⟨good.1.step transition, good.2.step good.1 transition⟩
  exact good.2

end ShardStream

/-- The stream waits for its front entry. -/
def Backed.Config.Awaits {implementation : Implementation} (config : Backed.Config implementation) :
    Prop :=
  match config.point with
  | .await _ _ | .reaping _ _ _ => True
  | _ => False

namespace ForEachBatch

open Pipeline Interleaved
open ShardStream (HoldsBlock construct twoFiles)

section

variable {environment : Environment} {implementation : Implementation}
variable {opens : Int → BackendOptions → Outcome implementation.Backend → Prop}
variable {suits : ReadRequest → Prop}
variable {contract : implementation.Contract opens environment.fails suits}

/-- A stream that waits is as full as the one it refines. -/
theorem Backed.Matches.halfFull {config : Backed.Config implementation}
    {ideal : ShardStream.Config} (matched : Backed.Matches contract config ideal)
    (awaits : config.Awaits)
    (full : ∀ size out, ideal.point = .await size out → ideal.stream.HalfFull) :
    config.backed.stream.readDepth = ideal.stream.readDepth ∧ config.backed.stream.HalfFull := by
  cases matched with
  | loop | returned => exact awaits.elim
  | await refines =>
      rw [refines.frame]
      exact ⟨rfl, full _ _ rfl⟩
  | reaping refines =>
      rw [refines.frame]
      exact ⟨rfl, full _ _ rfl⟩

end

namespace Interleaved

variable {environment : Environment} {options : BatchOptions} {callback : Nat → CallbackResult}
variable {shuffle : Nat → List Nat → List Nat} {shards : ShardSet} {first : State ShardStream}

/-- Over the backends of the library a stream of depth two or more never has that many entries
pending. Whenever it waits, half of that many are, unless the window is queued to its end or
the slots have run out. -/
theorem pipeline_short_of_depth {strerror : Nat → String} {short : Prop}
    (shuffles : ∀ seed order, (shuffle seed order).Perm order)
    (begins : begin shuffle shards options = .ok first)
    (blocks : ∀ shard ∈ shards, HoldsBlock options (environment.disk.alignment shard.path))
    (narrow : options.segmentBytes < 2 ^ 32) {interleaved}
    (run : Reaches (Step (libraryReader strerror short environment options) callback)
      (overBackends _ first) interleaved) :
    (2 ≤ options.readDepth →
      (interleaved.stream Backed.Config.backed).stream.pending.length < options.readDepth) ∧
    ∀ config, interleaved.call = some config → config.Awaits →
      options.readDepth ≤ 2 * config.backed.stream.pending.length ∨
        config.backed.stream.windowEnd ≤ config.backed.stream.nextOffset ∨
        true ∉ config.backed.stream.free := by
  obtain ⟨ideal, -, agrees, kept⟩ := joint_of_reaches shuffles begins blocks narrow run
  obtain ⟨-, -, positive, rfl⟩ := begin_eq_ok begins
  have slack {config : ShardStream.Config} (visits : ShardStream.Visits environment
      (construct shards (streamOrder shuffle shards options) options) config) :
      config.Slack options.readDepth :=
    visits.slack (ShardStream.sound_construct ..) (Nat.max_eq_left positive) rfl
  constructor
  · intro deep
    have short : (ideal.stream ShardStream.Config.stream).pending.length < options.readDepth := by
      refine @Kept.stream_holds _ _ _ _ _ _
        (fun stream => stream.pending.length < options.readDepth) kept
        (fun config visits => (slack visits).pending_lt deep) fun size stream held => ?_
      obtain ⟨carry, carrySize, frame⟩ := ShardStream.flushCarry_frame size stream
      simpa only [ShardStream.startRead, frame] using held
    obtain ⟨taken, refines⟩ := agrees.refines
    rwa [refines.pending_eq]
  · rintro config busy awaits
    cases agrees with
    | idle => cases busy
    | @reading _ _ config ideal matched =>
        cases busy
        have visited := slack (kept.visits rfl)
        obtain ⟨reads, half⟩ := Backed.Matches.halfFull matched awaits visited.halfFull
        rwa [ShardStream.HalfFull, reads, visited.reads] at half

/-- Of the two requests that the options allow, one is handed to the threads. -/
theorem twoShards_short_of_depth : ∃ interleaved,
    Reaches (Step (libraryReader toString False (honest twoFiles) inPairs) fun _ => .proceed)
      (overBackends _ (start 2 (construct twoShards [0, 1] inPairs))) interleaved ∧
    (interleaved.stream Backed.Config.backed).stream = firstFilled.1 ∧
    firstFilled.1.pending.length < 2 := by
  obtain ⟨interleaved, run, now⟩ := twoShards_queued
  have shuffles : ∀ (seed : Nat) (order : List Nat), order.Perm order := fun _ order => .refl order
  have same : (interleaved.stream Backed.Config.backed).stream = firstFilled.1 := by rw [now]
  have short := (pipeline_short_of_depth shuffles rfl twoShards_fit.2 (by decide) run).1
    (Nat.le_refl 2)
  exact ⟨interleaved, run, same, same ▸ short⟩

end Interleaved

end ForEachBatch

end Dsio
