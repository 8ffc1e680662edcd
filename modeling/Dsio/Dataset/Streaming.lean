import Mathlib.Data.Prod.Lex
import Dsio.Dataset.Contents

/-!
# Every read returns, with the bytes of the stream

While nothing fails, some step is always possible and every step lowers a rank: the
shards left, then the bytes of the window not yet queued, then the entries not yet
consumed and the reads not yet reported. So every call of `read` returns, and the calls
return the stream piece by piece.
-/

namespace Dsio.ShardStream

open Transition Window

variable {environment : Environment} {stream : ShardStream}

/-! ## Progress -/

/-- A call has returned bytes. -/
def Returned (config : Config) : Prop := ∃ out, config.point = .returned (.ok out)

/-- There are addresses beyond any that are in use. -/
theorem exists_above (addresses : List Nat) : ∃ base, ∀ address ∈ addresses, address < base := by
  induction addresses with
  | nil => exact ⟨0, by simp⟩
  | cons first rest ih =>
      obtain ⟨base, above⟩ := ih
      refine ⟨max (first + 1) base, fun address member => ?_⟩
      rcases List.mem_cons.mp member with rfl | later
      · omega
      · have below := above address later
        omega

/-- The next shard can be opened. -/
theorem exists_opening (environment : Environment) (stream : ShardStream) :
    ∃ opening, Opens environment stream opening := by
  obtain ⟨base, above⟩ := exists_above (stream.buffers.map (·.address))
  let path := (stream.shardAt stream.next).path
  let file : File := ⟨0, path, environment.disk.alignment path⟩
  have fresh : ∀ buffer ∈ stream.buffers, buffer.address ∉ List.range' base stream.readDepth := by
    intro buffer member inside
    have below := above buffer.address (List.mem_map.mpr ⟨buffer, member, rfl⟩)
    have least := (List.mem_range'_1.mp inside).1
    omega
  exact ⟨⟨.ok file, .ok (List.range' base stream.readDepth), .ok ()⟩,
    opens_of_calls rfl rfl (by simp) List.nodup_range' fresh⟩

/-- Short of the return of the call there is always a step. -/
theorem Config.Sound.progress {config : Config} (sound : config.Sound environment.disk)
    (full : environment.reports = fullReads) (running : ¬ Returned config)
    (noError : ∀ error, config.point ≠ .returned (.error error)) :
    ∃ after, Step environment config after := by
  obtain ⟨stream, point⟩ := config
  cases point with
  | returned got =>
      cases got with
      | ok out => exact absurd ⟨out, rfl⟩ running
      | error error => exact absurd rfl (noError error)
  | loop size out =>
      by_cases room : out.length < size
      · cases isOpen : stream.isOpen with
        | true =>
            obtain ⟨filled, entries, loop, fill, -⟩ :=
              fillLoop_spec stream.readDepth (filled_refl stream) (by simp)
            have fits : stream.Fits := ShardStream.Sound.fits sound isOpen fill loop
            exact ⟨_, .fill room isOpen .accepted fits⟩
        | false =>
            by_cases more : stream.next < stream.order.length
            · obtain ⟨opening, allowed⟩ := exists_opening environment stream
              exact ⟨_, .openShard room isOpen more opening allowed⟩
            · exact ⟨_, .finish (.inr ⟨isOpen, Nat.not_lt.mp more⟩)⟩
      · exact ⟨_, .finish (.inl (Nat.not_lt.mp room))⟩
  | await size out =>
      obtain ⟨kept, some⟩ := sound
      obtain ⟨entry, rest, pending⟩ := List.exists_cons_of_ne_nil some
      have front : stream.pending.head? = Option.some entry := by rw [pending]; rfl
      cases done : entry.done with
      | true => exact ⟨_, .take front done⟩
      | false =>
          have request : stream.entryRequest entry ∈ stream.inFlight :=
            kept.matched.mem_iff.mpr (List.mem_map.mpr
              ⟨entry, List.mem_filter.mpr ⟨List.mem_of_head? front, by simp [done]⟩, rfl⟩)
          obtain ⟨index, found⟩ := List.mem_iff_getElem?.mp request
          let completion : Completion := {
            token := entry.slot
            bytes := min (stream.entryRequest entry).dst.size
              ((environment.disk.content stream.file.path).length - entry.offset) }
          exact ⟨_, .reap front done (.completed index completion _)
            ⟨_, found, rfl, rfl, .inl ⟨rfl, by rw [full]; rfl⟩⟩⟩

/-! ## Rank -/

/-- The shards left, counting the open one once. -/
def shardsLeft (stream : ShardStream) : Nat :=
  2 * (stream.order.length - stream.next) + if stream.isOpen then 0 else 1

/-- The entries to consume, the reads to report and the point. -/
def workLeft (stream : ShardStream) (point : Point) : Nat :=
  2 * stream.pending.length + stream.pending.countP (fun entry => !entry.done) +
    match point with
    | .loop _ _ => 2
    | .await _ _ => 1
    | .returned _ => 0

def rank (config : Config) : ℕ ×ₗ ℕ ×ₗ ℕ :=
  toLex (config.stream.shardsLeft,
    toLex (config.stream.windowEnd - config.stream.nextOffset,
      config.stream.workLeft config.point))

/-- The shards left come first, then what is left of the window, then the point. -/
theorem rank_lt_iff {before after : Config} : rank after < rank before ↔
    after.stream.shardsLeft < before.stream.shardsLeft ∨
    after.stream.shardsLeft = before.stream.shardsLeft ∧
      (after.stream.windowEnd - after.stream.nextOffset <
          before.stream.windowEnd - before.stream.nextOffset ∨
        after.stream.windowEnd - after.stream.nextOffset =
            before.stream.windowEnd - before.stream.nextOffset ∧
          after.stream.workLeft after.point < before.stream.workLeft before.point) := by
  simp only [rank, Prod.Lex.toLex_lt_toLex]

/-- Queued entries take up some of the window. -/
theorem Tiled.le {start finish : Nat} {entries : List Pending}
    (tiled : Tiled stream.advance stream.windowEnd start entries finish)
    (positive : 0 < stream.block) : start ≤ finish ∧ (entries ≠ [] → start < finish) := by
  induction entries generalizing start with
  | nil =>
      cases tiled
      exact ⟨Nat.le_refl _, by simp⟩
  | cons entry rest ih =>
      obtain ⟨offset, inside, more⟩ := tiled
      have grows := lt_advance positive inside
      have later := (ih more).1
      exact ⟨by omega, fun _ => by omega⟩

/-- Closing a shard leaves one less. -/
theorem shardsLeft_closeShard (isOpen : stream.isOpen = true)
    (more : stream.next < stream.order.length) :
    stream.closeShard.shardsLeft < stream.shardsLeft := by
  simp only [shardsLeft, closeShard_eq, isOpen, if_true]
  simp
  omega

/-- Every step brings the return of the call nearer. -/
theorem rank_lt {before after : Config}
    (sound : before.Sound environment.disk) (noFailure : ¬ environment.fails)
    (move : Move environment before after) : rank after < rank before := by
  rw [rank_lt_iff]
  cases move with
  | fail fails => exact absurd fails noFailure
  | finish =>
      refine .inr ⟨rfl, .inr ⟨rfl, ?_⟩⟩
      simp only [workLeft]
      omega
  | @opened stream after _ _ _ closed _ begun =>
      left
      rw [begun]
      simp [shardsLeft, closed]
  | @exhausted stream _ _ _ isOpen =>
      have soundBefore : ShardStream.Sound environment.disk stream := sound
      exact .inl (shardsLeft_closeShard isOpen (soundBefore.opened isOpen).more)
  | @filled stream filled _ _ entries _ isOpen fill =>
      have soundBefore : ShardStream.Sound environment.disk stream := sound
      have opened := soundBefore.opened isOpen
      have grows := fill.tiled.le (opened.block ▸ environment.disk.aligned _)
      have tiles := fill.tiled
      obtain ⟨free, nextOffset, rfl⟩ := fill.exists_frame
      refine .inr ⟨rfl, ?_⟩
      by_cases queued : entries = []
      · subst queued
        cases tiles
        refine .inr ⟨rfl, ?_⟩
        simp [workLeft, submit]
      · have further := grows.2 queued
        left
        have inside : stream.nextOffset < stream.windowEnd := by
          obtain ⟨entry, rest, rfl⟩ := List.exists_cons_of_ne_nil queued
          exact tiles.2.1
        dsimp only at further
        simp only [submit]
        omega
  | @reaped stream _ _ _ first entry rest index completion data _ _ split waiting found =>
      rw [complete_eq found]
      refine .inr ⟨rfl, .inr ⟨rfl, ?_⟩⟩
      simp only [workLeft, split, List.length_append, List.length_cons, List.countP_append,
        List.countP_cons, waiting, finishEntry]
      simp
  | @taken stream size out entry rest pending done =>
      have isOpen := sound.1.isOpen sound.2
      have more := (sound.1.opened isOpen).more
      obtain ⟨carry, carrySize, same⟩ := stream.takeFront_frame entry (size - out.length)
      rw [pending, List.tail_cons] at same
      have less : ∀ point : Point, workLeft { stream with
          free := stream.free.set entry.slot true, pending := rest, carry, carrySize } point <
          stream.workLeft (.await size out) := by
        intro point
        cases point with
        | loop | await | returned =>
            simp only [workLeft, pending, List.length_cons, List.countP_cons, done, Bool.not_true,
              Bool.false_eq_true, if_false]
            omega
      simp only [afterTake]
      split
      · rw [same]
        exact .inr ⟨rfl, .inr ⟨rfl, less _⟩⟩
      · split
        · left
          rw [same]
          exact shardsLeft_closeShard isOpen more
        · rw [same]
          exact .inr ⟨rfl, .inr ⟨rfl, less _⟩⟩

/-- Consuming an entry does not fail. -/
theorem noError_of_take (entry : Pending) (size : Nat) (out : List Byte)
    (taken : List Byte × Nat × ShardStream) (error : Error) :
    (afterTake entry size out taken).point ≠ .returned (.error error) := by
  simp only [afterTake]
  split
  · simp
  · split <;> simp

/-- Without failures a step does not end in an error. -/
theorem noError_of_step {before after : Config} (sound : before.Sound environment.disk)
    (noFailure : ¬ environment.fails) (transition : Step environment before after) (error : Error) :
    after.point ≠ .returned (.error error) := by
  cases move_of_step sound transition with
  | fail fails => exact absurd fails noFailure
  | finish | opened | exhausted | filled | reaped => simp
  | taken => exact noError_of_take _ _ _ _ error

/-- While nothing fails, a call returns under every order of completions. -/
theorem Sound.inevitable (sound : Sound environment.disk stream)
    (full : environment.reports = fullReads) (noFailure : ¬ environment.fails) (size : Nat) :
    Inevitable (Step environment) Returned (ShardStream.startRead size stream) := by
  have preserved {before after : Config} (both : before.Sound environment.disk ∧
      ∀ error, before.point ≠ .returned (.error error))
      (transition : Step environment before after) :
      after.Sound environment.disk ∧ ∀ error, after.point ≠ .returned (.error error) :=
    ⟨both.1.step transition, noError_of_step both.1 noFailure transition⟩
  exact .ofRank wellFounded_lt rank preserved
    (fun config both running => both.1.progress full running both.2)
    (fun both _ transition => rank_lt both.1 noFailure (move_of_step both.1 transition))
    ⟨sound.startRead size, by simp [ShardStream.startRead]⟩

/-- While nothing fails, calls of any sizes can follow one another. -/
theorem Calls.extend {start : ShardStream} {sizes : List Nat} {outs : List (List Byte)}
    (calls : Calls environment start sizes outs stream) (sound : Sound environment.disk start)
    (full : environment.reports = fullReads) (noFailure : ¬ environment.fails) (more : List Nat) :
    ∃ outs after, Calls environment start (sizes ++ more) outs after := by
  induction more generalizing sizes outs stream with
  | nil => exact ⟨outs, stream, by simpa using calls⟩
  | cons size more ih =>
      obtain ⟨⟨after, point⟩, run, out, rfl⟩ :=
        ((calls.sound sound).inevitable full noFailure size).exists_reaches
      simpa using ih (calls.call run)

/-- What a reliable environment does an honest one may do. -/
theorem Step.honest {disk : Disk} {before after : Config} (transition : Step (reliable disk) before after) :
    Step (honest disk) before after := by
  cases transition with
  | finish ends => exact .finish ends
  | openShard room closed more opening allowed =>
      exact .openShard room closed more opening ⟨allowed.path, allowed.fresh, .inl trivial⟩
  | fill room isOpen submission allowed =>
      refine .fill room isOpen submission ?_
      cases submission with
      | accepted => exact allowed
      | refused => exact .inl trivial
  | reap front waits reaped allowed =>
      refine .reap front waits reaped ?_
      cases reaped with
      | failed => exact trivial
      | nothing => exact allowed
      | completed =>
          obtain ⟨request, found, token, read, ⟨ok, reports⟩ | ⟨_, _, fails⟩⟩ := allowed
          · exact ⟨request, found, token, read, .inl ⟨ok, reports⟩⟩
          · exact absurd fails id
  | take front done => exact .take front done

/-- While nothing fails, a call can return the front of what is unread. -/
theorem Between.exists_reads {disk : Disk} {start : ShardStream}
    (between : Between disk start stream) (fits : BlocksFit disk start) (size : Nat) :
    ∃ after, Reads (honest disk) size stream (.ok ((stream.unread disk).take size)) after ∧
      Between disk start after ∧ after.unread disk = (stream.unread disk).drop size := by
  have healthy : Between (reliable disk).disk start stream := between
  obtain ⟨⟨after, point⟩, run, out, rfl⟩ :=
    (healthy.sound.inevitable rfl id size).exists_reaches
  have reads : Reads (reliable disk) size stream (.ok out) after := run
  obtain ⟨next, rfl, rest⟩ := healthy.reads rfl fits reads
  exact ⟨after, Relation.ReflTransGen.mono (fun _ _ => Step.honest) _ _ run, next, rest⟩

/-! ## The stream -/

/-- The shards of the order are those of the set. -/
theorem shardAt_mem {shards : ShardSet} {order : List Nat} {options : BatchOptions}
    (permutes : order.Perm (List.range shards.length)) {position : Nat}
    (bound : position < order.length) :
    (construct shards order options).shardAt position ∈ shards := by
  have index : order[position] < shards.length := by
    simpa using permutes.mem_iff.mp (List.getElem_mem bound)
  simp [shardAt, construct, bound, index]

/-- Segments that hold a block of each shard's file hold one along the order. -/
theorem blocksFit_construct {disk : Disk} {shards : ShardSet} {order : List Nat}
    {options : BatchOptions} (permutes : order.Perm (List.range shards.length))
    (blocks : ∀ shard ∈ shards, HoldsBlock options (disk.alignment shard.path)) :
    BlocksFit disk (construct shards order options) :=
  fun _ bound => blocks _ (shardAt_mem permutes bound)

/-- A window inside its file does not wrap, since files are shorter than `2 ^ 63`. -/
theorem noOverflow_of_inside {disk : Disk} {shard : Shard}
    (inside : shard.offset + shard.length ≤ (disk.content shard.path).length) :
    shard.NoOverflow := by
  have bounded := disk.bounded shard.path
  simp only [Shard.NoOverflow]
  omega

/-- The calls cut the windows, and every further call returns. -/
theorem calls_cut (disk : Disk) {shards : ShardSet} {order : List Nat}
    {options : BatchOptions} (permutes : order.Perm (List.range shards.length))
    (inside : ∀ shard ∈ shards, shard.offset + shard.length ≤ (disk.content shard.path).length)
    (blocks : ∀ shard ∈ shards, HoldsBlock options (disk.alignment shard.path))
    {sizes : List Nat} {outs : List (List Byte)} {stream : ShardStream}
    (calls : Calls (reliable disk) (construct shards order options) sizes outs stream) :
    outs = cut sizes (streamOf disk shards order) ∧
      ∀ size, Inevitable (Step (reliable disk)) Returned (startRead size stream) := by
  have initially : Between (reliable disk).disk (construct shards order options) _ :=
    between_construct disk shards order options
  obtain ⟨between, returned, -⟩ := initially.calls rfl (blocksFit_construct permutes blocks) calls
  have unread := unread_construct disk options
    (fun shard member => noOverflow_of_inside (inside shard member)) permutes
  exact ⟨returned.trans (by rw [← unread]; rfl), fun size => between.sound.inevitable rfl id size⟩

/-- With windows inside their files, whatever the depth, the segment size, the sizes
asked for and the order the backend completes its reads in: the calls return the
concatenation of the windows, cut into pieces of the sizes asked for, and every call
returns. -/
theorem calls_return_stream (disk : Disk) {shards : ShardSet} {order : List Nat}
    {options : BatchOptions} (permutes : order.Perm (List.range shards.length))
    (inside : ∀ shard ∈ shards, shard.offset + shard.length ≤ (disk.content shard.path).length)
    (blocks : ∀ shard ∈ shards, HoldsBlock options (disk.alignment shard.path))
    {sizes : List Nat} {outs : List (List Byte)} {stream : ShardStream}
    (calls : Calls (reliable disk) (construct shards order options) sizes outs stream) :
    outs = cut sizes (streamOf disk shards order) ∧
      outs.flatten = (streamOf disk shards order).take sizes.sum ∧
      ((streamOf disk shards order).length ≤ sizes.sum →
        outs.flatten = streamOf disk shards order) ∧
      (∀ shard ∈ shards, (disk.bytesOf shard).length = shard.length) ∧
      ∀ size, Inevitable (Step (reliable disk)) Returned (startRead size stream) := by
  obtain ⟨cuts, returns⟩ := calls_cut disk permutes inside blocks calls
  have whole := flatten_cut sizes (streamOf disk shards order)
  refine ⟨cuts, cuts ▸ whole, fun enough => ?_,
    fun shard member => length_window_of_inside (inside shard member), returns⟩
  rw [cuts, whole, List.take_of_length_le enough]

/-- A file of three bytes in blocks of two, and one of two bytes in blocks of one. -/
def twoFiles : Disk where
  content := fun path => if path = "a" then [1, 2, 3] else [4, 5]
  alignment := fun path => if path = "a" then 2 else 1
  aligned := fun path => by
    split
    · decide
    · decide
  bounded := fun path => by
    split
    · decide
    · decide

theorem two_files_in_reverse : ∃ outs stream, Calls (reliable twoFiles)
    (construct [⟨"a", 0, 3⟩, ⟨"b", 0, 2⟩] [1, 0] { segmentBytes := 2, readDepth := 2 })
    [3, 4] outs stream ∧ outs = [[4, 5, 1], [2, 3]] := by
  obtain ⟨outs, stream, calls⟩ : ∃ outs stream, Calls (reliable twoFiles)
      (construct [⟨"a", 0, 3⟩, ⟨"b", 0, 2⟩] [1, 0] { segmentBytes := 2, readDepth := 2 })
      [3, 4] outs stream := Calls.none.extend (sound_construct ..) rfl id [3, 4]
  have spec := calls_return_stream twoFiles (by decide) (by decide) (by decide) calls
  refine ⟨outs, stream, calls, ?_⟩
  simpa [streamOf, cut, twoFiles, Disk.bytesOf, window] using spec.1

end Dsio.ShardStream
