import Dsio.Dataset.Contents

/-!
# Short reads leave gaps

A successful read may report fewer bytes than it was asked for before the end of the
file. The entries of a shard sit at offsets fixed when they were queued, so what a
shard contributes is contiguous exactly when every entry it went on from was read in
full. `Trace` records what each consumed entry contributed and what the calls have
returned; the bytes returned are those of the files at the extents.
-/

namespace Dsio.ShardStream

open Transition Window

/-- What one entry contributed: `bytes` at `offset` of the shard at `position` of the
order. Its request covers `share` bytes of the window. -/
structure Extent where
  position : Nat
  offset : Nat
  share : Nat
  bytes : Nat
deriving DecidableEq, Repr

/-- The bytes of its shard's file at an extent. -/
def Extent.read (disk : Disk) (stream : ShardStream) (extent : Extent) : List Byte :=
  window (disk.content (stream.shardAt extent.position).path) extent.offset extent.bytes

/-- The entry the next step consumes. -/
def extentOf (config : Config) : Option Extent :=
  match config.point, config.stream.pending.head? with
  | .await _ _, some entry =>
      if entry.done then
        some ⟨config.stream.next, entry.offset, config.stream.share entry.offset, entry.bytes⟩
      else none
  | _, _ => none

@[simp] theorem extentOf_loop (stream : ShardStream) (size : Nat) (out : List Byte) :
    extentOf ⟨stream, .loop size out⟩ = none := rfl

/-- A run of any number of calls, with what it consumed and what the calls before the
current one returned. -/
inductive Trace (environment : Environment) (start : ShardStream) :
    List Extent → List Byte → Config → Prop where
  | begins (size : Nat) : Trace environment start [] [] (startRead size start)
  | steps {extents returned config next}
      (prior : Trace environment start extents returned config)
      (transition : Step environment config next) :
      Trace environment start (extents ++ (extentOf config).toList) returned next
  | calls {extents returned stream out} (prior : Trace environment start extents returned
      ⟨stream, .returned (.ok out)⟩) (size : Nat) :
      Trace environment start extents (returned ++ out) (startRead size stream)

/-- The bytes in the `out` of the current call. -/
def Point.out : Point → List Byte
  | .loop _ out => out
  | .await _ out => out
  | .returned (.ok out) => out
  | .returned (.error _) => []

/-- What the calls have given so far, with the bytes that are carried to the next one. -/
def Config.emitted (returned : List Byte) (config : Config) : List Byte :=
  returned ++ config.point.out ++ config.stream.carried

/-! ## Chains of extents -/

/-- Where the extents end, if each begins where the one before it ended. -/
def chain (length : Extent → Nat) : Nat → List Extent → Option Nat
  | reach, [] => some reach
  | reach, extent :: rest =>
      if extent.offset = reach then chain length (reach + length extent) rest else none

/-- A chain goes on with an extent that begins where the chain ends. -/
theorem chain_append (length : Extent → Nat) (reach : Nat) (extents : List Extent)
    (extent : Extent) : chain length reach (extents ++ [extent]) =
      (chain length reach extents).bind fun last =>
        if extent.offset = last then some (last + length extent) else none := by
  induction extents generalizing reach with
  | nil => rfl
  | cons first rest ih =>
      simp only [List.cons_append, chain]
      split
      · exact ih _
      · rfl

/-- Bytes were read for every extent, and no more than it covers. -/
def Positive (extents : List Extent) : Prop :=
  ∀ extent ∈ extents, 0 < extent.bytes ∧ extent.bytes ≤ extent.share

/-- Every extent was read in full. -/
def Full (extents : List Extent) : Prop := ∀ extent ∈ extents, extent.bytes = extent.share

/-- An extent that stops short is followed by nothing that continues it. -/
theorem chain_of_short {extent : Extent} {rest : List Extent} {reach : Nat}
    (tiles : chain Extent.share (extent.offset + extent.share) rest = some reach)
    (short : extent.bytes < extent.share) (more : rest ≠ []) :
    chain Extent.bytes (extent.offset + extent.bytes) rest = none := by
  obtain ⟨second, later, rfl⟩ := List.exists_cons_of_ne_nil more
  simp only [chain] at tiles ⊢
  split at tiles
  · next follows =>
    rw [if_neg (by omega)]
  · cases tiles

/-- What was consumed so far is contiguous when all but the last extent are full. -/
theorem chain_isSome_iff {extents : List Extent} {start reach : Nat}
    (tiles : chain Extent.share start extents = some reach) (positive : Positive extents) :
    (chain Extent.bytes start extents).isSome ↔ Full extents.dropLast := by
  induction extents generalizing start with
  | nil => simp [chain, Full]
  | cons extent rest ih =>
      have bounds := positive extent List.mem_cons_self
      simp only [chain] at tiles ⊢
      split at tiles
      · next same =>
        subst same
        simp only [if_true]
        by_cases more : rest = []
        · simp [more, chain, Full]
        · rw [List.dropLast_cons_of_ne_nil more]
          by_cases full : extent.bytes = extent.share
          · rw [full, ih tiles fun other member => positive other (List.mem_cons_of_mem _ member)]
            simp [Full, full]
          · rw [chain_of_short tiles (by omega) more]
            simp [Full, full]
      · cases tiles

/-- Extents that follow one another are one window of their file. -/
theorem flatMap_of_chain {extents : List Extent} {start reach : Nat} (content : List Byte)
    (tiles : chain Extent.bytes start extents = some reach) :
    start ≤ reach ∧
      (extents.flatMap fun extent => window content extent.offset extent.bytes) =
        window content start (reach - start) := by
  induction extents generalizing start with
  | nil =>
      cases tiles
      simp
  | cons extent rest ih =>
      simp only [chain] at tiles
      split at tiles
      · next same =>
        obtain ⟨within, follows⟩ := ih tiles
        refine ⟨by omega, ?_⟩
        rw [List.flatMap_cons, follows, same, Nat.sub_add_eq]
        exact (window_split content start (by omega)).symm
      · cases tiles

/-- A window is covered to its end when all extents are full. -/
theorem chain_covers_iff {extents : List Extent} {start reach finish : Nat}
    (tiles : chain Extent.share start extents = some reach) (positive : Positive extents)
    (ended : finish ≤ reach) (inside : ∀ extent ∈ extents, extent.offset + extent.share ≤ finish) :
    (∃ last, chain Extent.bytes start extents = some last ∧ finish ≤ last) ↔ Full extents := by
  induction extents generalizing start with
  | nil =>
      simp only [chain, Option.some.injEq] at tiles
      subst tiles
      simp [chain, Full, ended]
  | cons extent rest ih =>
      have bounds := positive extent List.mem_cons_self
      have within := inside extent List.mem_cons_self
      simp only [chain] at tiles ⊢
      split at tiles
      · next same =>
        subst same
        simp only [if_true]
        by_cases full : extent.bytes = extent.share
        · rw [full, ih tiles (fun other member => positive other (List.mem_cons_of_mem _ member))
            fun other member => inside other (List.mem_cons_of_mem _ member)]
          simp [Full, full]
        · refine iff_of_false ?_ fun all => full (all extent List.mem_cons_self)
          rintro ⟨last, found, covers⟩
          by_cases more : rest = []
          · simp only [more, chain, Option.some.injEq] at found
            omega
          · rw [chain_of_short tiles (by omega) more] at found
            cases found
      · cases tiles

/-! ## Contiguity -/

/-- What the shard at a position contributed. -/
def contributed (position : Nat) (extents : List Extent) : List Extent :=
  extents.filter fun extent => extent.position = position

/-- The bytes emitted are those of the shards' files at the extents. For every shard, each
entry's bytes continue those before it, and a shard the stream has left was covered to the
end of its window. (Segments that do not hold a block are read past the end of their
buffers.) -/
structure Contiguous (disk : Disk) (extents : List Extent) (emitted : List Byte)
    (stream : ShardStream) : Prop where
  bytes : BlocksFit disk stream → emitted = extents.flatMap (Extent.read disk stream)
  left : ∀ position < stream.next, ∃ last,
    chain Extent.bytes (stream.shardAt position).offset (contributed position extents) = some last ∧
      (stream.shardAt position).end ≤ last
  current : stream.isOpen = true →
    (chain Extent.bytes (stream.shardAt stream.next).offset
      (contributed stream.next extents)).isSome

/-- Every completion consumed was for the whole share of its request, the last one of the
open shard apart. -/
structure ReadInFull (extents : List Extent) (stream : ShardStream) : Prop where
  left : ∀ position < stream.next, Full (contributed position extents)
  current : stream.isOpen = true → Full (contributed stream.next extents).dropLast

/-- The offsets of the extents, whatever was read. -/
structure Served (start : ShardStream) (extents : List Extent) (stream : ShardStream) : Prop where
  done : ∀ entry ∈ stream.pending, entry.done = true →
    0 < entry.bytes ∧ entry.bytes ≤ stream.share entry.offset
  positive : Positive extents
  inside : ∀ extent ∈ extents, extent.offset + extent.share ≤ (start.shardAt extent.position).end
  known : ∀ extent ∈ extents,
    extent.position < if stream.isOpen then stream.next + 1 else stream.next
  left : ∀ position < stream.next, ∃ reach,
    chain Extent.share (start.shardAt position).offset (contributed position extents) = some reach ∧
      (start.shardAt position).end ≤ reach
  current : stream.isOpen = true →
    chain Extent.share (start.shardAt stream.next).offset (contributed stream.next extents) =
      some stream.position

variable {start stream : ShardStream} {extents : List Extent}

/-- What one shard contributed is positive. -/
theorem Positive.contributed (positive : Positive extents) (position : Nat) :
    Positive (contributed position extents) :=
  fun extent member => positive extent (List.mem_of_mem_filter member)

/-- The property and its condition agree wherever the extents tile. -/
theorem Served.contiguous_iff {disk : Disk} {emitted : List Byte}
    (served : Served start extents stream) (stems : Stems start stream)
    (bytes : BlocksFit disk stream → emitted = extents.flatMap (Extent.read disk stream)) :
    Contiguous disk extents emitted stream ↔ ReadInFull extents stream := by
  have leftIff (position : Nat) (passed : position < stream.next) : (∃ last,
      chain Extent.bytes (stream.shardAt position).offset (contributed position extents) =
          some last ∧ (stream.shardAt position).end ≤ last) ↔
      Full (contributed position extents) := by
    obtain ⟨reach, tiles, ended⟩ := served.left position passed
    rw [stems.shardAt]
    refine chain_covers_iff tiles (served.positive.contributed position) ended ?_
    intro extent member
    obtain ⟨known, same⟩ := List.mem_filter.mp member
    have inside := served.inside extent known
    rwa [of_decide_eq_true same] at inside
  have currentIff (isOpen : stream.isOpen = true) :
      (chain Extent.bytes (stream.shardAt stream.next).offset
        (contributed stream.next extents)).isSome ↔
      Full (contributed stream.next extents).dropLast := by
    rw [stems.shardAt]
    exact chain_isSome_iff (served.current isOpen) (served.positive.contributed _)
  constructor
  · intro contiguous
    exact ⟨fun position passed => (leftIff position passed).mp (contiguous.left position passed),
      fun isOpen => (currentIff isOpen).mp (contiguous.current isOpen)⟩
  · intro full
    exact ⟨bytes, fun position passed => (leftIff position passed).mpr (full.left position passed),
      fun isOpen => (currentIff isOpen).mpr (full.current isOpen)⟩

/-- What a contiguous run emitted of a shard the stream has left is one window of its file,
up to the end of the shard or further. -/
theorem Contiguous.window_left {disk : Disk} {emitted : List Byte}
    (contiguous : Contiguous disk extents emitted stream) {position : Nat}
    (passed : position < stream.next) : ∃ last, (stream.shardAt position).end ≤ last ∧
      (contributed position extents).flatMap (Extent.read disk stream) =
        window (disk.content (stream.shardAt position).path) (stream.shardAt position).offset
          (last - (stream.shardAt position).offset) := by
  obtain ⟨last, tiles, ended⟩ := contiguous.left position passed
  refine ⟨last, ended, ?_⟩
  rw [← (flatMap_of_chain (disk.content (stream.shardAt position).path) tiles).2]
  refine List.flatMap_congr fun extent member => ?_
  have same : extent.position = position := of_decide_eq_true (List.mem_filter.mp member).2
  rw [Extent.read, same]

/-! ## Traces -/

/-- Successful reads report some bytes, no more than were asked for and than the file has. -/
def Environment.Positive (environment : Environment) : Prop :=
  ∀ requested available bytes, environment.reports requested available bytes →
    0 < bytes ∧ bytes ≤ requested ∧ bytes ≤ available

/-- An extent is contributed by its own shard alone. -/
theorem contributed_append (position : Nat) (extents : List Extent) (extent : Extent) :
    contributed position (extents ++ [extent]) = contributed position extents ++
      if extent.position = position then [extent] else [] := by
  simp only [contributed, List.filter_append, List.filter_cons, List.filter_nil]
  simp

/-- A new stream has served nothing. -/
theorem served_construct (shards : ShardSet) (order : List Nat) (options : BatchOptions) :
    Served (construct shards order options) [] (construct shards order options) where
  done := by simp [construct]
  positive := by simp [Positive]
  inside := by simp
  known := by simp
  left := by simp [construct]
  current := by simp [construct]

/-- Only the pipeline matters. -/
theorem Served.carry (served : Served start extents stream) (carry : List Byte)
    (carrySize : Nat) : Served start extents { stream with carry, carrySize } :=
  ⟨served.done, served.positive, served.inside, served.known, served.left, served.current⟩

/-- Handing out the carry consumes no entry. -/
theorem Served.flushCarry (served : Served start extents stream) (size : Nat) :
    Served start extents (stream.flushCarry size).2 := by
  obtain ⟨carry, carrySize, same⟩ := flushCarry_frame size stream
  rw [same]
  exact served.carry carry carrySize

/-- A shard that is opened has contributed nothing. -/
theorem Served.opened {disk : Disk} {after : ShardStream} (served : Served start extents stream)
    (stems : Stems start stream) (sound : Sound disk stream) (closed : stream.isOpen = false)
    (begun : Begun stream after) : Served start extents after := by
  have empty := (sound.closed closed).2
  have known := served.known
  rw [begun]
  simp only [closed, Bool.false_eq_true, if_false] at known
  refine ⟨by simp [empty], served.positive, served.inside, ?_, served.left, fun _ => ?_⟩
  · intro extent member
    have earlier := known extent member
    simp only [if_true]
    omega
  · have none : contributed stream.next extents = [] :=
      List.filter_eq_nil_iff.mpr fun extent member => by
        simpa using Nat.ne_of_lt (known extent member)
    simp [none, chain, position, empty, stems.shardAt]

/-- A shard that is closed behind its window was covered. -/
theorem Served.closeShard {disk : Disk} (served : Served start extents stream)
    (stems : Stems start stream) (sound : Sound disk stream) (isOpen : stream.isOpen = true)
    (ended : stream.windowEnd ≤ stream.position) : Served start extents stream.closeShard := by
  have known := served.known
  simp only [isOpen, if_true] at known
  refine ⟨by simp [closeShard_eq], served.positive, served.inside, known, ?_,
    by simp [closeShard_eq]⟩
  intro position passed
  by_cases last : position = stream.next
  · subst last
    refine ⟨stream.position, served.current isOpen, ?_⟩
    rw [← stems.shardAt, ← (sound.opened isOpen).windowEnd]
    exact ended
  · have earlier : position < stream.next + 1 := passed
    exact served.left position (by omega)

/-- Entries that are queued have no bytes yet. -/
theorem Served.fill {disk : Disk} {filled : ShardStream} {entries : List Pending}
    (served : Served start extents stream) (sound : Sound disk stream)
    (isOpen : stream.isOpen = true) (fill : Filled stream filled entries) :
    Served start extents (filled.submit (entries.map stream.entryRequest)) := by
  have front := (sound.fill_tiled isOpen fill).2
  have waiting := fill.waiting
  obtain ⟨free, nextOffset, rfl⟩ := fill.exists_frame
  refine ⟨?_, served.positive, served.inside, served.known, served.left, fun _ => ?_⟩
  · intro entry member done
    rcases List.mem_append.mp member with old | queued
    · exact served.done entry old done
    · rw [waiting entry queued] at done
      cases done
  · exact (served.current isOpen).trans (congrArg some front.symm)

/-- A positive completion gives its entry bytes within its share. -/
theorem Served.reaped {disk : Disk} {index : Nat} {before after : List Pending} {entry : Pending}
    {request : ReadRequest} {completion : Completion} (data : List Byte)
    (served : Served start extents stream) (sound : Sound disk stream)
    (isOpen : stream.isOpen = true) (split : stream.pending = before ++ entry :: after)
    (found : stream.inFlight[index]? = some request) (some : 0 < completion.bytes)
    (bound : completion.bytes ≤ stream.requestLength (stream.windowEnd - entry.offset)) :
    Served start extents { stream.complete index data with
      pending := before ++ finishEntry stream.windowEnd completion entry :: after } := by
  have front : position { stream.complete index data with
      pending := before ++ finishEntry stream.windowEnd completion entry :: after } =
      stream.position := by
    simp only [position, complete_eq found, split]
    cases before <;> rfl
  rw [complete_eq found] at front ⊢
  refine ⟨?_, served.positive, served.inside, served.known, served.left, fun _ => ?_⟩
  · intro other member done
    have inside := (sound.opened isOpen).tiled.inside entry (by simp [split])
    rcases List.mem_append.mp member with earlier | later
    · exact served.done other (by simp [split, earlier]) done
    · rcases List.mem_cons.mp later with rfl | later
      · show 0 < min _ _ ∧ min _ _ ≤ min (stream.requestLength _) _
        simp only [finishEntry]
        omega
      · exact served.done other (by simp [split, later]) done
  · rw [front]
    exact served.current isOpen

/-- The extent of the front entry follows those of its shard. -/
theorem Served.takeFront {disk : Disk} {entry : Pending} {rest : List Pending}
    (served : Served start extents stream) (stems : Stems start stream)
    (sound : Sound disk stream) (isOpen : stream.isOpen = true)
    (pending : stream.pending = entry :: rest) (done : entry.done = true) (room : Nat) :
    Served start (extents ++ [⟨stream.next, entry.offset, stream.share entry.offset, entry.bytes⟩])
      (stream.takeFront entry room).2.2 := by
  obtain ⟨carry, carrySize, same⟩ := stream.takeFront_frame entry room
  have opened := sound.opened isOpen
  have tiled := opened.tiled
  have front : stream.position = entry.offset := by simp [position, pending]
  rw [pending, front] at tiled
  have nextPosition : position { stream with
      free := stream.free.set entry.slot true, pending := rest, carry, carrySize } =
      stream.advance entry.offset := by rw [opened.position_taken pending, front]
  have known := served.known
  simp only [isOpen, if_true] at known
  rw [same, pending, List.tail_cons]
  refine ⟨?_, ?_, ?_, ?_, ?_, fun _ => ?_⟩
  · exact fun other member => served.done other (pending ▸ List.mem_cons_of_mem _ member)
  · intro extent member
    rcases List.mem_append.mp member with old | new
    · exact served.positive extent old
    · rw [List.mem_singleton.mp new]
      exact served.done entry (pending ▸ List.mem_cons_self) done
  · intro extent member
    rcases List.mem_append.mp member with old | new
    · exact served.inside extent old
    · rw [List.mem_singleton.mp new, ← stems.shardAt, ← opened.windowEnd]
      exact advance_le (Nat.le_of_lt tiled.2.1)
  · simp only [isOpen, if_true, List.mem_append, List.mem_singleton]
    rintro extent (old | rfl)
    · exact known extent old
    · exact Nat.lt_succ_self _
  · intro position passed
    have earlier : ¬ stream.next = position := fun same => by
      have below : position < stream.next := passed
      omega
    rw [contributed_append, if_neg earlier, List.append_nil]
    exact served.left position passed
  · have before := served.current isOpen
    show chain _ _ (contributed stream.next _) = _
    rw [contributed_append, if_pos rfl, chain_append, before, nextPosition, front]
    simp [advance]

/-- What holds along a trace until an error ends it. -/
structure Config.Serves (disk : Disk) (start : ShardStream) (extents : List Extent)
    (config : Config) : Prop where
  sound : config.Sound disk
  stems : config.Stems start
  served : (∀ error, config.point ≠ .returned (.error error)) →
    Served start extents config.stream

/-- A step consumes at most the entry that `extentOf` names. -/
theorem Config.Serves.step {environment : Environment} {before after : Config}
    (positive : Environment.Positive environment)
    (serves : before.Serves environment.disk start extents)
    (transition : Step environment before after) :
    after.Serves environment.disk start (extents ++ (extentOf before).toList) := by
  have move := move_of_step serves.sound transition
  refine ⟨serves.sound.step transition, move.stems serves.stems, fun noError => ?_⟩
  obtain ⟨sound, stems, served⟩ := serves
  cases move with
  | fail => exact absurd rfl (noError _)
  | finish => simpa [extentOf] using served (by simp)
  | opened _ closed _ begun =>
      simpa [extentOf] using (served (by simp)).opened stems sound closed begun
  | @exhausted stream size out _ isOpen empty ended spare =>
      have position : stream.position = stream.nextOffset := by simp [position, empty]
      simpa [extentOf] using
        (served (by simp)).closeShard stems sound isOpen (position ▸ ended)
  | filled _ isOpen fill =>
      simpa [extentOf] using (served (by simp)).fill sound isOpen fill
  | @reaped stream size out first _ entry _ index completion data front waits split waiting found
      reports =>
      have isOpen := sound.1.isOpen sound.2
      obtain ⟨some, bound, -⟩ := positive _ _ _ reports
      have none : extentOf ⟨stream, .await size out⟩ = none := by simp [extentOf, front, waits]
      rw [none, Option.toList_none, List.append_nil]
      exact (served (by simp)).reaped data sound.1 isOpen split found some bound
  | @taken stream size out entry rest pending done =>
      have isOpen := sound.1.isOpen sound.2
      have before := served (by simp)
      have bytes := (before.done entry (pending ▸ List.mem_cons_self) done).1
      have consumed : extentOf ⟨stream, .await size out⟩ =
          some ⟨stream.next, entry.offset, stream.share entry.offset, entry.bytes⟩ := by
        simp [extentOf, pending, done]
      have kept := before.takeFront stems sound.1 isOpen pending done (size - out.length)
      rw [consumed, Option.toList_some]
      simp only [afterTake]
      split
      · exact kept
      · rw [if_neg (by omega)]
        exact kept

/-- The extents of a trace tile the windows. -/
theorem Trace.serves {environment : Environment} {shards : ShardSet} {order : List Nat}
    {options : BatchOptions} {returned : List Byte} {config : Config}
    (positive : Environment.Positive environment)
    (trace : Trace environment (construct shards order options) extents returned config) :
    config.Serves environment.disk (construct shards order options) extents := by
  induction trace with
  | begins size =>
      exact ⟨(sound_construct ..).startRead size, Stems.startRead ⟨rfl, rfl, rfl⟩ size,
        fun _ => (served_construct ..).flushCarry size⟩
  | steps _ transition ih => exact ih.step positive transition
  | calls _ size ih =>
      exact ⟨ShardStream.Sound.startRead ih.sound size, Stems.startRead ih.stems size,
        fun _ => (ih.served (by simp)).flushCarry size⟩

/-! ## The bytes emitted -/

/-- The entries that are done hold as many bytes as they count of what is at their offset. -/
def Landed (disk : Disk) (stream : ShardStream) : Prop :=
  ∀ entry ∈ stream.pending, entry.done = true →
    Finished (disk.content stream.file.path) entry.bytes (stream.bufferAt entry.slot) entry

/-- The bytes handed out, and those carried behind them, are the extents'. -/
structure Accounted (disk : Disk) (start : ShardStream) (extents : List Extent)
    (handed : List Byte) (stream : ShardStream) : Prop where
  landed : Landed disk stream
  stored : stream.carrySize ≤ stream.carry.length
  bytes : handed ++ stream.carried = extents.flatMap (Extent.read disk start)

/-- What holds of the bytes along a trace; nothing is carried where `read` has room. -/
def Config.Accounts (disk : Disk) (start : ShardStream) (extents : List Extent)
    (returned : List Byte) (config : Config) : Prop :=
  match config.point with
  | .loop size out =>
      Accounted disk start extents (returned ++ out) config.stream ∧
        (out.length < size → config.stream.carrySize = 0)
  | .await size out =>
      Accounted disk start extents (returned ++ out) config.stream ∧ out.length < size ∧
        config.stream.carrySize = 0
  | .returned (.ok out) => Accounted disk start extents (returned ++ out) config.stream
  | .returned (.error _) => True

section

variable {disk : Disk} {returned handed : List Byte}

/-- A call begins with the front of the carry. -/
theorem Accounted.startRead (accounted : Accounted disk start extents handed stream)
    (size : Nat) : (startRead size stream).Accounts disk start extents handed := by
  obtain ⟨carry, flushed, stored, kept⟩ := flushCarry_spec accounted.stored size
  have length := length_carried accounted.stored
  rw [ShardStream.startRead, flushed]
  refine ⟨⟨accounted.landed, stored, ?_⟩, fun short => ?_⟩
  · rw [← accounted.bytes]
    show handed ++ stream.carried.take size ++ carry.take (stream.carrySize - size) = _
    rw [kept, List.append_assoc, List.take_append_drop]
  · rw [List.length_take, length] at short
    show stream.carrySize - size = 0
    omega

/-- A read that fits its buffer lands the bytes at the offset of its entry. -/
theorem Landed.reaped {index : Nat} {before after : List Pending} {entry : Pending}
    {completion : Completion} {data : List Byte} (landed : Landed disk stream)
    (sound : Sound disk stream) (holds : stream.block ≤ stream.segment)
    (split : stream.pending = before ++ entry :: after)
    (found : stream.inFlight[index]? = some (stream.entryRequest entry))
    (bound : completion.bytes ≤ (stream.entryRequest entry).dst.size)
    (available : completion.bytes ≤ (disk.content stream.file.path).length - entry.offset)
    (read : data = window (disk.content stream.file.path) entry.offset completion.bytes) :
    Landed disk { stream.complete index data with
      pending := before ++ finishEntry stream.windowEnd completion entry :: after } := by
  have fits := entryRequest_le_buffer sound holds (show entry ∈ stream.pending by simp [split])
  have finished := finished_of_report stream.windowEnd (Nat.le_trans bound fits) available
  rw [← read] at finished
  have all := forall_done_complete (fun entry buffer =>
    Finished (disk.content stream.file.path) entry.bytes buffer entry) sound split found landed
      finished
  rw [complete_eq found] at all ⊢
  exact all

/-- The front entry's bytes go to `out` and, where it is full, to the carry. -/
theorem Accounted.taken {entry : Pending} {rest : List Pending} {size : Nat} {out : List Byte}
    (accounted : Accounted disk start extents (returned ++ out) stream)
    (sound : Sound disk stream) (stems : Stems start stream) (none : stream.carrySize = 0)
    (pending : stream.pending = entry :: rest) (done : entry.done = true) :
    (afterTake entry size out (stream.takeFront entry (size - out.length))).Accounts disk start
      (extents ++ [⟨stream.next, entry.offset, stream.share entry.offset, entry.bytes⟩])
      returned := by
  have path := (sound.opened (sound.isOpen (by simp [pending]))).path
  have finished := accounted.landed entry (pending ▸ List.mem_cons_self) done
  have others (other : Pending) (member : other ∈ rest) : other ∈ stream.pending :=
    pending ▸ List.mem_cons_of_mem _ member
  obtain ⟨carry, carrySize, same, stores⟩ := takeFront_spec finished (size - out.length)
  have whole := accounted.bytes
  rw [carried_of_carrySize none, List.append_nil] at whole
  have extended : (extents ++ [Extent.mk stream.next entry.offset (stream.share entry.offset)
      entry.bytes]).flatMap (Extent.read disk start) = returned ++ (out ++
        window (disk.content stream.file.path) entry.offset entry.bytes) := by
    rw [List.flatMap_append, ← whole, List.flatMap_singleton, Extent.read, ← stems.shardAt, ← path,
      List.append_assoc]
  generalize window (disk.content stream.file.path) entry.offset entry.bytes = bytes at *
  rw [same, pending, List.tail_cons, afterTake]
  rcases stores with ⟨fits, rfl, rfl⟩ | ⟨beyond, size, bound, kept⟩
  · have notLeft : ¬ 0 < bytes.length - (size - out.length) := by omega
    have handed : returned ++ (out ++ bytes) ++ stream.carried =
        returned ++ (out ++ bytes) := by
      rw [carried_of_carrySize none, List.append_nil]
    rw [if_neg notLeft, List.take_of_length_le fits]
    split
    · exact ⟨⟨by simp [Landed, closeShard_eq], accounted.stored, handed.trans extended.symm⟩,
        fun _ => none⟩
    · exact ⟨⟨fun other member => accounted.landed other (others other member),
        accounted.stored, handed.trans extended.symm⟩, fun _ => none⟩
  · rw [if_pos (by omega)]
    refine ⟨fun other member => accounted.landed other (others other member), bound, ?_⟩
    show returned ++ (out ++ bytes.take _) ++ carry.take carrySize = _
    rw [kept, extended]
    simp only [List.append_assoc, List.take_append_drop]

end

/-- One step consumes at most the front entry, and accounts for its bytes. -/
theorem Config.Accounts.step {environment : Environment} {returned : List Byte}
    {before after : Config} (positive : Environment.Positive environment)
    (fits : BlocksFit environment.disk start) (sound : before.Sound environment.disk)
    (stems : before.Stems start)
    (accounts : before.Accounts environment.disk start extents returned)
    (move : Move environment before after) :
    after.Accounts environment.disk start (extents ++ (extentOf before).toList) returned := by
  cases move with
  | fail => trivial
  | finish =>
      rw [extentOf_loop, Option.toList_none, List.append_nil]
      exact accounts.1
  | @opened stream after _ _ _ closed _ begun =>
      obtain ⟨⟨landed, stored, bytes⟩, none⟩ := accounts
      have soundBefore : ShardStream.Sound environment.disk stream := sound
      have empty : stream.pending = [] := (soundBefore.closed closed).2
      rw [begun, extentOf_loop, Option.toList_none, List.append_nil]
      exact ⟨⟨by simp [Landed, empty], stored, bytes⟩, none⟩
  | exhausted =>
      obtain ⟨⟨landed, stored, bytes⟩, none⟩ := accounts
      rw [extentOf_loop, Option.toList_none, List.append_nil]
      exact ⟨⟨by simp [Landed, closeShard_eq], stored, bytes⟩, none⟩
  | @filled stream filled _ _ entries room isOpen fill =>
      obtain ⟨⟨landed, stored, bytes⟩, none⟩ := accounts
      have waiting := fill.waiting
      obtain ⟨free, nextOffset, rfl⟩ := fill.exists_frame
      rw [extentOf_loop, Option.toList_none, List.append_nil]
      refine ⟨⟨fun entry member done => ?_, stored, bytes⟩, room, none room⟩
      rcases List.mem_append.mp member with old | queued
      · exact landed entry old done
      · rw [waiting entry queued] at done
        cases done
  | @reaped stream size out first _ entry _ index completion data front waits split waiting found
      reports read =>
      obtain ⟨⟨landed, stored, bytes⟩, room, none⟩ := accounts
      obtain ⟨-, bound, available⟩ := positive _ _ _ reports
      have nothing : extentOf ⟨stream, .await size out⟩ = .none := by
        simp [extentOf, front, waits]
      have isOpen := sound.1.isOpen sound.2
      have lands := landed.reaped sound.1 (block_le_segment sound.1 stems fits isOpen) split found
        bound available read
      rw [nothing, Option.toList_none, List.append_nil]
      rw [complete_eq found] at lands ⊢
      exact ⟨⟨lands, stored, bytes⟩, room, none⟩
  | @taken stream size out entry rest pending done =>
      obtain ⟨accounted, -, none⟩ := accounts
      have consumed : extentOf ⟨stream, .await size out⟩ =
          some ⟨stream.next, entry.offset, stream.share entry.offset, entry.bytes⟩ := by
        simp [extentOf, pending, done]
      rw [consumed, Option.toList_some]
      exact accounted.taken sound.1 stems none pending done

/-- The bytes are accounted for along a trace. -/
theorem Trace.accounts {environment : Environment} {shards : ShardSet} {order : List Nat}
    {options : BatchOptions} {returned : List Byte} {config : Config}
    (positive : Environment.Positive environment)
    (fits : BlocksFit environment.disk (construct shards order options))
    (trace : Trace environment (construct shards order options) extents returned config) :
    config.Accounts environment.disk (construct shards order options) extents returned := by
  induction trace with
  | begins size =>
      exact Accounted.startRead ⟨by simp [Landed, construct], Nat.le_refl _, rfl⟩ size
  | steps prior transition ih =>
      have serves := prior.serves positive
      exact ih.step positive fits serves.sound serves.stems
        (move_of_step serves.sound transition)
  | calls _ size ih => exact Accounted.startRead ih size

/-- Short of an error, the bytes emitted are those at the extents. -/
theorem Config.Accounts.emitted {disk : Disk} {returned : List Byte} {config : Config}
    (accounts : config.Accounts disk start extents returned)
    (noError : ∀ error, config.point ≠ .returned (.error error)) :
    config.emitted returned = extents.flatMap (Extent.read disk start) := by
  obtain ⟨stream, point⟩ := config
  cases point with
  | loop | await => exact accounts.1.bytes
  | returned got =>
      cases got with
      | ok => exact accounts.bytes
      | error error => exact absurd rfl (noError error)

/-- Short of an error the options and the shards are the ones the stream was made with. -/
theorem Config.Stems.of_noError {config : Config} (stems : config.Stems start)
    (noError : ∀ error, config.point ≠ .returned (.error error)) :
    ShardStream.Stems start config.stream := by
  obtain ⟨stream, point⟩ := config
  cases point with
  | loop | await => exact stems
  | returned got =>
      cases got with
      | ok => exact stems
      | error error => exact absurd rfl (noError error)

/-- Whatever positive counts the reads report: short of an error, the bytes emitted are those
of the files at the extents, and what each shard contributed is contiguous, without a gap in
any window the stream has left, exactly when every completion it went on from was for the
whole share of its request. -/
theorem contiguous_iff_readInFull {environment : Environment} {shards : ShardSet}
    {order : List Nat} {options : BatchOptions} {returned : List Byte} {config : Config}
    (positive : Environment.Positive environment)
    (trace : Trace environment (construct shards order options) extents returned config)
    (noError : ∀ error, config.point ≠ .returned (.error error)) :
    Contiguous environment.disk extents (config.emitted returned) config.stream ↔
      ReadInFull extents config.stream := by
  have serves := trace.serves positive
  have stems := serves.stems.of_noError noError
  refine (serves.served noError).contiguous_iff stems fun fits => ?_
  have reads : Extent.read environment.disk config.stream =
      Extent.read environment.disk (construct shards order options) := by
    funext extent
    rw [Extent.read, Extent.read, stems.shardAt]
  rw [reads]
  have fitsStart : BlocksFit environment.disk (construct shards order options) := by
    intro position within
    have holds := fits position (stems.order.symm ▸ within)
    rwa [stems.options, stems.shardAt] at holds
  exact (trace.accounts positive fitsStart).emitted noError

/-! ## One short read -/

/-- One file of four bytes, on a device with blocks of two. -/
def fourBytes : Disk where
  content := fun _ => [1, 2, 3, 4]
  alignment := fun _ => 2
  aligned := fun _ => by decide
  bounded := fun _ => by decide

/-- Nothing fails, and reads may be short. -/
def shortReads : Environment := ⟨fourBytes, False, fun requested available bytes =>
  0 < bytes ∧ bytes ≤ requested ∧ bytes ≤ available⟩

/-- The file read in two segments, one at a time. -/
def unreadFile : ShardStream := construct [⟨"a", 0, 4⟩] [0] { segmentBytes := 2, readDepth := 1 }

def fileOpening : Opening := ⟨.ok ⟨3, "a", 2⟩, .ok [0], .ok ()⟩

def fileOpened : ShardStream := (unreadFile.openShard fileOpening).2

def firstQueued : ShardStream := (fileOpened.fillPipeline .accepted).2

/-- The reads of the segments report these counts. -/
def firstRead (first : Nat) : ShardStream :=
  (firstQueued.awaitOne (.completed 0 ⟨0, first, 0⟩ ([1, 2].take first))).2

def firstTaken (first : Nat) : ShardStream :=
  ((firstRead first).takeFront ⟨0, 0, first, true⟩ 4).2.2

def secondQueued (first : Nat) : ShardStream := ((firstTaken first).fillPipeline .accepted).2

def secondRead (first second : Nat) : ShardStream :=
  ((secondQueued first).awaitOne (.completed 0 ⟨0, second, 0⟩ ([3, 4].take second))).2

def secondTaken (first second : Nat) : ShardStream :=
  ((secondRead first second).takeFront ⟨2, 0, second, true⟩ (4 - first)).2.2

/-- The first segment is read and taken. -/
theorem trace_firstTaken {first : Nat} (within : first = 1 ∨ first = 2) :
    Trace shortReads unreadFile [⟨0, 0, 2, first⟩] []
      ⟨firstTaken first, .loop 4 ([1, 2].take first)⟩ := by
  have opens : Step shortReads (startRead 4 unreadFile) ⟨fileOpened, .loop 4 []⟩ :=
    .openShard (by decide) rfl (by decide) fileOpening
      (opens_of_calls rfl rfl rfl (by simp) (by simp [unreadFile, construct, flushCarry]))
  have fills : Step shortReads ⟨fileOpened, .loop 4 []⟩ ⟨firstQueued, .await 4 []⟩ := by
    refine .fill (by decide) rfl .accepted ?_
    rintro backend ⟨⟩
    decide
  have begun := ((Trace.begins 4).steps opens).steps fills
  rcases within with rfl | rfl
  · have reaps : Step shortReads ⟨firstQueued, .await 4 []⟩ ⟨firstRead 1, .await 4 []⟩ :=
      .reap rfl rfl (.completed 0 ⟨0, 1, 0⟩ [1])
        ⟨⟨0, ⟨0, 2⟩, 0⟩, rfl, rfl, rfl, .inl ⟨rfl, by decide, by decide, by decide⟩⟩
    have front : (firstRead 1).pending.head? = some ⟨0, 0, 1, true⟩ := rfl
    exact (begun.steps reaps).steps (.take front rfl)
  · have reaps : Step shortReads ⟨firstQueued, .await 4 []⟩ ⟨firstRead 2, .await 4 []⟩ :=
      .reap rfl rfl (.completed 0 ⟨0, 2, 0⟩ [1, 2])
        ⟨⟨0, ⟨0, 2⟩, 0⟩, rfl, rfl, rfl, .inl ⟨rfl, by decide, by decide, by decide⟩⟩
    have front : (firstRead 2).pending.head? = some ⟨0, 0, 2, true⟩ := rfl
    exact (begun.steps reaps).steps (.take front rfl)

/-- The second segment is short. -/
theorem trace_shortEnd : Trace shortReads unreadFile [⟨0, 0, 2, 2⟩, ⟨0, 2, 2, 1⟩] []
    ⟨secondTaken 2 1, .loop 4 [1, 2, 3]⟩ := by
  have fills : Step shortReads ⟨firstTaken 2, .loop 4 [1, 2]⟩ ⟨secondQueued 2, .await 4 [1, 2]⟩ := by
    refine .fill (by decide) rfl .accepted ?_
    rintro backend ⟨⟩
    decide
  have reaps : Step shortReads ⟨secondQueued 2, .await 4 [1, 2]⟩ ⟨secondRead 2 1, .await 4 [1, 2]⟩ :=
    .reap rfl rfl (.completed 0 ⟨0, 1, 0⟩ [3])
      ⟨⟨2, ⟨0, 2⟩, 0⟩, rfl, rfl, rfl, .inl ⟨rfl, by decide, by decide, by decide⟩⟩
  have front : (secondRead 2 1).pending.head? = some ⟨2, 0, 1, true⟩ := rfl
  exact (((trace_firstTaken (.inr rfl)).steps fills).steps reaps).steps (.take front rfl)

/-- The first segment is short, and the call returns. -/
theorem trace_shortFirst : Trace shortReads unreadFile [⟨0, 0, 2, 1⟩, ⟨0, 2, 2, 2⟩] []
    ⟨(secondTaken 1 2).closeShard, .returned (.ok [1, 3, 4])⟩ := by
  have fills : Step shortReads ⟨firstTaken 1, .loop 4 [1]⟩ ⟨secondQueued 1, .await 4 [1]⟩ := by
    refine .fill (by decide) rfl .accepted ?_
    rintro backend ⟨⟩
    decide
  have reaps : Step shortReads ⟨secondQueued 1, .await 4 [1]⟩ ⟨secondRead 1 2, .await 4 [1]⟩ :=
    .reap rfl rfl (.completed 0 ⟨0, 2, 0⟩ [3, 4])
      ⟨⟨2, ⟨0, 2⟩, 0⟩, rfl, rfl, rfl, .inl ⟨rfl, by decide, by decide, by decide⟩⟩
  have front : (secondRead 1 2).pending.head? = some ⟨2, 0, 2, true⟩ := rfl
  have closes : Step shortReads ⟨secondTaken 1 2, .loop 4 [1, 3, 4]⟩
      ⟨(secondTaken 1 2).closeShard, .loop 4 [1, 3, 4]⟩ := by
    refine .fill (by decide) rfl .accepted ?_
    rintro backend ⟨⟩
    decide
  have finishes : Step shortReads ⟨(secondTaken 1 2).closeShard, .loop 4 [1, 3, 4]⟩
      ⟨(secondTaken 1 2).closeShard, .returned (.ok [1, 3, 4])⟩ :=
    .finish (.inr ⟨rfl, by decide⟩)
  exact (((((trace_firstTaken (.inl rfl)).steps fills).steps reaps).steps
    (.take front rfl)).steps closes).steps finishes

/-- A short read at the end of what was consumed leaves no gap yet: the bytes are 1, 2, 3. -/
theorem contiguous_after_short_read :
    Contiguous fourBytes [⟨0, 0, 2, 2⟩, ⟨0, 2, 2, 1⟩] [1, 2, 3] (secondTaken 2 1) := by
  have before : (contributed (secondTaken 2 1).next
      [⟨0, 0, 2, 2⟩, ⟨0, 2, 2, 1⟩]).dropLast = [⟨0, 0, 2, 2⟩] := by decide
  exact (contiguous_iff_readInFull (fun _ _ _ reports => reports) trace_shortEnd (by simp)).mpr
    ⟨fun position passed => absurd passed (Nat.not_lt_zero position), fun _ => by
      simp [before, Full]⟩

/-- The call returns the bytes 1, 3 and 4 of the file as if they were consecutive. -/
theorem short_read_leaves_gap : ¬ ∀ (environment : Environment) (shards : ShardSet)
    (order : List Nat) (options : BatchOptions) (extents : List Extent) (returned : List Byte)
    (config : Config), Environment.Positive environment →
    Trace environment (construct shards order options) extents returned config →
    (∀ error, config.point ≠ .returned (.error error)) →
      Contiguous environment.disk extents (config.emitted returned) config.stream := by
  intro always
  have contiguous := always _ _ _ _ _ _ _ (fun _ _ _ reports => reports) trace_shortFirst (by simp)
  obtain ⟨last, tiles, -⟩ := contiguous.left 0 (by decide)
  have gap : chain Extent.bytes 0 (contributed 0 [⟨0, 0, 2, 1⟩, ⟨0, 2, 2, 2⟩]) = none := by decide
  cases gap.symm.trans tiles

end Dsio.ShardStream
