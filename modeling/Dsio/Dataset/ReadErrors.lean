import Dsio.Dataset.Segments

/-!
# What comes before a read error

The reads of some segments fail, whenever they are completed, and nothing else does; the
backend still completes the requests in flight in any order. `preceding` is what the
stream has before the first of these segments. `await_front` returns the error of
whatever completion it reaps, so an error can end a call that bytes from before that
segment would have filled.
-/

namespace Dsio.ShardStream

open Transition Window

/-- The segment reads that fail, by the position of the shard in the order and the
offset. -/
structure Faults where
  errno : Nat → Nat → Option Nat
  nonzero : ∀ position offset code, errno position offset = some code → code ≠ 0

/-- At the end of a file and beyond it a read gives no bytes, and does not fail. -/
def Fails (disk : Disk) (faults : Faults) (stream : ShardStream) (position offset : Nat) : Prop :=
  offset < (disk.content (stream.shardAt position).path).length ∧
    (faults.errno position offset).isSome = true

instance (disk : Disk) (faults : Faults) (stream : ShardStream) (position offset : Nat) :
    Decidable (Fails disk faults stream position offset) :=
  inferInstanceAs (Decidable (_ ∧ _))

/-- The completion of a full read, with its data. -/
def fullRead (content : List Byte) (index : Nat) (request : ReadRequest) : Reaped :=
  let bytes := min request.dst.size (content.length - request.offset)
  .completed index ⟨request.token, bytes, 0⟩ (window content request.offset bytes)

/-- What the backend reports of a request of the open shard. -/
def answer (disk : Disk) (faults : Faults) (stream : ShardStream) (index : Nat)
    (request : ReadRequest) : Reaped :=
  match faults.errno stream.next request.offset with
  | some code =>
      if request.offset < (disk.content (stream.shardAt stream.next).path).length then
        .completed index ⟨request.token, 0, code⟩ []
      else fullRead (disk.content stream.file.path) index request
  | none => fullRead (disk.content stream.file.path) index request

/-- The steps of a call while reads fail: the only choice is which request completes. -/
inductive FaultStep (disk : Disk) (faults : Faults) : Config → Config → Prop where
  | loop {stream size out after}
      (transition : Step (reliable disk) ⟨stream, .loop size out⟩ after) :
      FaultStep disk faults ⟨stream, .loop size out⟩ after
  | reap {stream size out entry index request} (front : stream.pending.head? = some entry)
      (waits : entry.done = false) (found : stream.inFlight[index]? = some request) :
      FaultStep disk faults ⟨stream, .await size out⟩
        (afterReap size out (stream.awaitOne (answer disk faults stream index request)))
  | take {stream size out entry} (front : stream.pending.head? = some entry)
      (done : entry.done = true) :
      FaultStep disk faults ⟨stream, .await size out⟩
        (afterTake entry size out (stream.takeFront entry (size - out.length)))

/-- Successive calls that return no error. -/
inductive FaultCalls (disk : Disk) (faults : Faults) (start : ShardStream) :
    List Nat → List (List Byte) → ShardStream → Prop where
  | none : FaultCalls disk faults start [] [] start
  | call {sizes outs stream after size out} (prior : FaultCalls disk faults start sizes outs stream)
      (reads : Reaches (FaultStep disk faults) (startRead size stream)
        ⟨after, .returned (.ok out)⟩) :
      FaultCalls disk faults start (sizes ++ [size]) (outs ++ [out]) after

variable {disk : Disk} {faults : Faults} {stream : ShardStream}

/-- A bad segment is answered with its errno. -/
theorem answer_of_fails {request : ReadRequest} (index : Nat)
    (fails : Fails disk faults stream stream.next request.offset) :
    ∃ code, code ≠ 0 ∧
      answer disk faults stream index request = .completed index ⟨request.token, 0, code⟩ [] := by
  obtain ⟨inside, some⟩ := fails
  obtain ⟨code, given⟩ := Option.isSome_iff_exists.mp some
  exact ⟨code, faults.nonzero _ _ _ given, by simp only [answer, given, if_pos inside]⟩

/-- A segment that is not bad is read in full. -/
theorem answer_of_not_fails {request : ReadRequest} (index : Nat)
    (healthy : ¬ Fails disk faults stream stream.next request.offset) :
    answer disk faults stream index request =
      fullRead (disk.content stream.file.path) index request := by
  cases given : faults.errno stream.next request.offset with
  | none => simp only [answer, given]
  | some code =>
      have beyond : ¬ request.offset < (disk.content (stream.shardAt stream.next).path).length :=
        fun inside => healthy ⟨inside, by rw [given]; rfl⟩
      simp only [answer, given, if_neg beyond]

/-- Reads that fail are among what an honest environment may do. -/
theorem FaultStep.honest {before after : Config} (transition : FaultStep disk faults before after) :
    Step (honest disk) before after := by
  cases transition with
  | loop transition => exact transition.honest
  | @reap stream size out entry index request front waits found =>
      by_cases fails : Fails disk faults stream stream.next request.offset
      · obtain ⟨code, nonzero, same⟩ := answer_of_fails index fails
        rw [same]
        exact .reap front waits _ ⟨request, found, rfl, (window_zero _ _).symm,
          .inr ⟨nonzero, rfl, trivial⟩⟩
      · rw [answer_of_not_fails index fails]
        exact .reap front waits _ ⟨request, found, rfl, rfl, .inl ⟨rfl, rfl⟩⟩
  | take front done => exact .take front done

/-- Calls that meet faults are calls of an honest environment. -/
theorem FaultCalls.honest {start : ShardStream} {sizes : List Nat} {outs : List (List Byte)}
    (calls : FaultCalls disk faults start sizes outs stream) :
    Calls (honest disk) start sizes outs stream := by
  induction calls with
  | none => exact .none
  | call _ reads ih =>
      exact ih.call (Relation.ReflTransGen.mono (fun _ _ => FaultStep.honest) _ _ reads)

/-! ## The first failing segment -/

/-- The first segment in the order of the stream whose read fails: at `offset` of the shard
at `position` of the order. -/
structure FirstFailing (disk : Disk) (faults : Faults) (start : ShardStream)
    (position offset : Nat) : Prop where
  bound : position < start.order.length
  segment : IsSegment disk start.options (start.shardAt position) offset
  fails : Fails disk faults start position offset
  earlier : ∀ before < position, ∀ other,
    IsSegment disk start.options (start.shardAt before) other →
      ¬ Fails disk faults start before other
  before : ∀ other < offset, IsSegment disk start.options (start.shardAt position) other →
    ¬ Fails disk faults start position other

/-- The file has bytes in a segment whose read fails. -/
theorem FirstFailing.following_pos {start : ShardStream} {position offset : Nat}
    (first : FirstFailing disk faults start position offset) :
    0 < (following disk start position offset).length := by
  have inside := SegmentFrom.inside first.segment
  have lasts := first.fails.1
  simp only [following, List.length_append, length_window]
  omega

/-! ## The failing segment stays ahead -/

/-- The stream has not consumed the failing segment, what it has yet to consume are
segments, and no entry that is done is one whose read fails. -/
structure Ahead (disk : Disk) (faults : Faults) (position offset : Nat) (stream : ShardStream) :
    Prop where
  behind : stream.next < position ∨ stream.next = position ∧ (stream.isOpen = true →
    SegmentFrom stream.advance stream.windowEnd stream.position offset)
  segments : stream.isOpen = true → ∀ other,
    SegmentFrom stream.advance stream.windowEnd stream.position other →
      IsSegment disk stream.options (stream.shardAt stream.next) other
  clear : ∀ entry ∈ stream.pending, entry.done = true →
    ¬ Fails disk faults stream stream.next entry.offset

def Config.Ahead (disk : Disk) (faults : Faults) (position offset : Nat) (config : Config) : Prop :=
  match config.point with
  | .returned (.error _) => True
  | _ => ShardStream.Ahead disk faults position offset config.stream

variable {start : ShardStream} {position offset : Nat}

/-- Leaving a shard that does not have the failing segment ahead. -/
theorem Ahead.closeShard (ahead : Ahead disk faults position offset stream)
    (passed : stream.next ≠ position) : Ahead disk faults position offset stream.closeShard := by
  have earlier : stream.next < position :=
    ahead.behind.resolve_right fun here => passed here.1
  rw [closeShard_eq]
  refine ⟨?_, by simp, by simp⟩
  rcases Nat.lt_or_ge (stream.next + 1) position with more | last
  · exact .inl more
  · exact .inr ⟨Nat.le_antisymm earlier last, by simp⟩

/-- Handing out the carry leaves the failing segment ahead. -/
theorem Ahead.startRead (ahead : Ahead disk faults position offset stream) (size : Nat) :
    (startRead size stream).Ahead disk faults position offset := by
  obtain ⟨carry, carrySize, same⟩ := flushCarry_frame size stream
  rw [ShardStream.startRead, same]
  exact ⟨ahead.behind, ahead.segments, ahead.clear⟩

/-- What `await_front` does with an answer. -/
theorem Sound.awaitOne_answer {index : Nat} {request : ReadRequest} (sound : Sound disk stream)
    (faults : Faults) (found : stream.inFlight[index]? = some request) :
    ∃ before entry after, stream.pending = before ++ entry :: after ∧
      stream.entryRequest entry = request ∧
      (Fails disk faults stream stream.next entry.offset → ∃ error rest,
        stream.awaitOne (answer disk faults stream index request) = (.error error, rest)) ∧
      (¬ Fails disk faults stream stream.next entry.offset → ∃ completion data,
        stream.awaitOne (answer disk faults stream index request) =
          (.ok (), { stream.complete index data with
            pending := before ++ finishEntry stream.windowEnd completion entry :: after })) := by
  by_cases fails : Fails disk faults stream stream.next request.offset
  · obtain ⟨code, nonzero, same⟩ := answer_of_fails index fails
    obtain ⟨before, entry, after, split, -, rfl, awaited⟩ :=
      @Sound.awaitOne disk stream index request ⟨request.token, 0, code⟩ sound found rfl []
    rw [if_pos nonzero] at awaited
    exact ⟨before, entry, after, split, rfl, fun _ => ⟨_, _, same ▸ awaited⟩,
      fun healthy => absurd fails healthy⟩
  · have same := answer_of_not_fails index fails
    rw [fullRead] at same
    generalize min request.dst.size _ = bytes at same
    obtain ⟨before, entry, after, split, -, rfl, awaited⟩ :=
      @Sound.awaitOne disk stream index request ⟨request.token, bytes, 0⟩ sound found rfl
        (window (disk.content stream.file.path) request.offset bytes)
    rw [if_neg (by simp)] at awaited
    exact ⟨before, entry, after, split, rfl, fun failing => absurd failing fails,
      fun _ => ⟨_, _, same ▸ awaited⟩⟩

/-- Opening a shard, filling the pipeline and leaving an exhausted shard. -/
theorem Ahead.loop {size : Nat} {out : List Byte} {after : Config}
    (ahead : Ahead disk faults position offset stream) (sound : Sound disk stream)
    (stems : Stems start stream) (first : FirstFailing disk faults start position offset)
    (transition : Step (reliable disk) ⟨stream, .loop size out⟩ after) :
    after.Ahead disk faults position offset := by
  have move : Move (reliable disk) ⟨stream, .loop size out⟩ after := move_of_step sound transition
  cases move with
  | fail fails => exact fails.elim
  | finish => exact ahead
  | @opened _ after _ _ _ closed _ begun soundAfter =>
      have isOpen : after.isOpen = true := by rw [begun]
      have next : after.next = stream.next := by rw [begun]
      have shard (place : Nat) : after.shardAt place = stream.shardAt place := by
        rw [begun]
        rfl
      have options : after.options = stream.options := by rw [begun]
      have empty : after.pending = [] := by
        rw [begun]
        exact (sound.closed closed).2
      have whole : after.position = (after.shardAt after.next).offset := by
        rw [next, shard]
        simp only [ShardStream.position, empty, List.head?_nil, Option.map_none, Option.getD_none]
        rw [begun]
      have segment {other : Nat} := @Opened.isSegment_iff _ _ (soundAfter.opened isOpen) whole other
      refine ⟨?_, fun _ other => segment.mp, by simp [empty]⟩
      rw [next]
      refine ahead.behind.imp_right ?_
      rintro ⟨here, -⟩
      refine ⟨here, fun _ => segment.mpr ?_⟩
      rw [options, shard, next, here, stems.options, stems.shardAt]
      exact first.segment
  | exhausted _ isOpen empty ended =>
      refine ahead.closeShard fun here => ?_
      obtain ⟨-, segment⟩ := ahead.behind.resolve_left (by omega)
      have begins := (segment isOpen).begins
      simp only [ShardStream.position, empty, List.head?_nil, Option.map_none,
        Option.getD_none] at begins
      omega
  | @filled _ filled _ _ entries _ isOpen fill =>
      have same := (sound.fill_tiled isOpen fill).2
      have waiting := fill.waiting
      obtain ⟨free, nextOffset, rfl⟩ := fill.exists_frame
      have position : ShardStream.position (submit (entries.map stream.entryRequest) { stream with
          free, pending := stream.pending ++ entries, nextOffset }) = stream.position := same
      refine ⟨?_, ?_, ?_⟩
      · rw [position]
        exact ahead.behind
      · rw [position]
        exact ahead.segments
      · intro entry member done
        rcases List.mem_append.mp member with old | queued
        · exact ahead.clear entry old done
        · rw [waiting entry queued] at done
          cases done

/-- Reaping a read that does not fail finishes its entry. -/
theorem Ahead.reap {size index : Nat} {out : List Byte} {request : ReadRequest}
    (ahead : Ahead disk faults position offset stream) (sound : Sound disk stream)
    (found : stream.inFlight[index]? = some request) :
    Config.Ahead disk faults position offset
      (afterReap size out (stream.awaitOne (answer disk faults stream index request))) := by
  obtain ⟨before, entry, after, split, rfl, failing, finished⟩ := sound.awaitOne_answer faults found
  by_cases fails : Fails disk faults stream stream.next entry.offset
  · obtain ⟨error, rest, awaited⟩ := failing fails
    rw [awaited]
    trivial
  · obtain ⟨completion, data, awaited⟩ := finished fails
    have place := position_finished found split completion data
    have clear := ahead.clear
    rw [split] at clear
    rw [awaited]
    show ShardStream.Ahead disk faults position offset { stream.complete index data with
      pending := before ++ finishEntry stream.windowEnd completion entry :: after }
    refine ⟨?_, ?_, ?_⟩
    · rw [place, complete_eq found]
      exact ahead.behind
    · rw [place, complete_eq found]
      exact ahead.segments
    · rw [complete_eq found]
      intro other member done
      rcases List.mem_append.mp member with earlier | later
      · exact clear other (List.mem_append_left _ earlier) done
      · rcases List.mem_cons.mp later with rfl | later
        · exact fails
        · exact clear other (List.mem_append_right _ (List.mem_cons_of_mem _ later)) done

/-- An entry that counts no bytes is where its file has ended. -/
theorem Finished.ended {content : List Byte} {share : Nat} {buffer : AlignedBuffer}
    {entry : Pending} (finished : Finished content share buffer entry) (positive : 0 < share)
    (none : entry.bytes = 0) : content.length ≤ entry.offset := by
  have count := finished.bytes
  rw [none, length_window] at count
  omega

/-- Consuming the front entry goes on to the segment after it, or to the next shard. -/
theorem Ahead.take {size : Nat} {out : List Byte} {entry : Pending} {rest : List Pending}
    (ahead : Ahead disk faults position offset stream) (sound : Sound disk stream)
    (stems : Stems start stream) (genuine : Genuine disk stream)
    (first : FirstFailing disk faults start position offset)
    (pending : stream.pending = entry :: rest) (done : entry.done = true) :
    Config.Ahead disk faults position offset
      (afterTake entry size out (stream.takeFront entry (size - out.length))) := by
  have isOpen := sound.isOpen (by simp [pending])
  have opened := sound.opened isOpen
  have member : entry ∈ stream.pending := pending ▸ List.mem_cons_self
  obtain ⟨front, positive, -⟩ := window_at_position sound pending isOpen []
  have fails : Fails disk faults stream position offset := by
    simpa only [Fails, stems.shardAt] using first.fails
  have tiled := opened.tiled
  rw [pending, front] at tiled
  obtain ⟨carry, carrySize, same⟩ := stream.takeFront_frame entry (size - out.length)
  have kept : ShardStream.Ahead disk faults position offset { stream with
      free := stream.free.set entry.slot true, pending := stream.pending.tail, carry,
      carrySize } := by
    have place : ShardStream.position { stream with
        free := stream.free.set entry.slot true, pending := stream.pending.tail, carry,
        carrySize } = stream.advance stream.position := by
      rw [pending]
      exact opened.position_taken pending _ carry carrySize
    refine ⟨?_, fun _ other later => ?_, ?_⟩
    · refine ahead.behind.imp_right ?_
      rintro ⟨here, segment⟩
      refine ⟨here, fun _ => ?_⟩
      rw [place]
      refine (segment isOpen).next fun same => ?_
      refine ahead.clear entry member done ?_
      rw [← front, ← same, here]
      exact fails
    · rw [place] at later
      exact ahead.segments isOpen other (.later (front ▸ tiled.2.1) later)
    · intro other inside
      exact ahead.clear other (List.mem_of_mem_tail inside)
  rw [← same] at kept
  simp only [afterTake]
  split
  · exact kept
  · split
    · next none =>
      refine kept.closeShard ?_
      rw [same]
      intro (here : stream.next = position)
      -- the failing segment would be past the end of its file
      obtain ⟨-, segment⟩ := ahead.behind.resolve_left (by omega)
      have later := (segment isOpen).le (opened.block ▸ disk.aligned _) rfl
      have ended := (genuine entry member done).ended positive none
      have inside := first.fails.1
      rw [opened.path, here, stems.shardAt] at ended
      omega
    · exact kept

/-- Short of an error the failing segment stays ahead. -/
theorem Config.Ahead.step {size : Nat} {bytes : List Byte} {before after : Config}
    (first : FirstFailing disk faults start position offset)
    (ahead : before.Ahead disk faults position offset)
    (faithful : before.Faithful disk start size bytes)
    (transition : FaultStep disk faults before after) :
    after.Ahead disk faults position offset := by
  obtain ⟨sound, stems, conserves⟩ := faithful
  cases transition with
  | loop transition => exact ShardStream.Ahead.loop ahead sound stems first transition
  | reap _ _ found => exact ShardStream.Ahead.reap ahead sound.1 found
  | @take stream _ _ entry front done =>
      obtain ⟨rest, pending⟩ := List.head?_eq_some_iff.mp front
      exact ShardStream.Ahead.take ahead sound.1 stems conserves.2.1.genuine first pending done

/-- What holds within a call while the failing segment is ahead. -/
theorem FaultStep.keeps {size : Nat} {bytes : List Byte} {before after : Config}
    (first : FirstFailing disk faults start position offset) (fits : BlocksFit disk start)
    (kept : before.Faithful disk start size bytes ∧ before.Ahead disk faults position offset)
    (transition : FaultStep disk faults before after) :
    after.Faithful disk start size bytes ∧ after.Ahead disk faults position offset :=
  ⟨kept.1.step rfl fits transition.honest, kept.2.step first kept.1 transition⟩

/-- At first the failing segment is ahead. -/
theorem ahead_construct {shards : ShardSet} {order : List Nat} {options : BatchOptions}
    (disk : Disk) (faults : Faults) (position offset : Nat) :
    Ahead disk faults position offset (construct shards order options) where
  behind := (Nat.eq_zero_or_pos position).symm.imp id fun here => ⟨here.symm, by simp [construct]⟩
  segments := by simp [construct]
  clear := by simp [construct]

/-- What holds between calls while the failing segment is ahead. -/
theorem FaultCalls.ahead {sizes : List Nat} {outs : List (List Byte)}
    (first : FirstFailing disk faults start position offset) (fits : BlocksFit disk start)
    (initially : Between disk start start ∧ Ahead disk faults position offset start)
    (calls : FaultCalls disk faults start sizes outs stream) :
    Between disk start stream ∧ Ahead disk faults position offset stream := by
  induction calls with
  | none => exact initially
  | call _ reads ih =>
      obtain ⟨⟨sound, stems, conserves⟩, ahead⟩ :=
        Reaches.preserves reads (FaultStep.keeps first fits) ⟨ih.1.startRead _, ih.2.startRead _⟩
      exact ⟨⟨sound, stems, conserves.1⟩, ahead⟩

/-! ## When the error comes -/

/-- The bytes of the pending segments before the first whose read fails. -/
def readyAhead (disk : Disk) (faults : Faults) (stream : ShardStream) : Nat :=
  match stream.pending.find? fun entry =>
      decide (Fails disk faults stream stream.next entry.offset) with
  | some entry => entry.offset - stream.position
  | none => 0

/-- The batch cannot be filled before a read fails that is already pending. -/
def Config.Starved (disk : Disk) (faults : Faults) (config : Config) : Prop :=
  match config.point with
  | .await size out => out.length + config.stream.readyAhead disk faults < size
  | _ => False

/-- After calls that returned `outs`, a call of `read` on `size` bytes gets to a point where
its next step is an error. -/
structure FailsAfter (disk : Disk) (faults : Faults) (start : ShardStream) (sizes : List Nat)
    (outs : List (List Byte)) (size : Nat) (config : Config) : Prop where
  run : ∃ stream, FaultCalls disk faults start sizes outs stream ∧
    Reaches (FaultStep disk faults) (startRead size stream) config
  error : ∃ after error, FaultStep disk faults config ⟨after, .returned (.error error)⟩

/-- The batches returned are those of the bytes before the failing segment, and a further
one of `size` bytes would need some of the segment. -/
structure DeliversPreceding (disk : Disk) (start : ShardStream) (position offset : Nat)
    (sizes : List Nat) (outs : List (List Byte)) (size : Nat) : Prop where
  batches : outs = cut sizes (preceding disk start position offset)
  full : sizes.sum ≤ (preceding disk start position offset).length
  every : (preceding disk start position offset).length < sizes.sum + size

/-- The only step that ends in an error reaps a read that fails. -/
theorem FaultStep.fails {before : Config} {after : ShardStream} {error : Error}
    (sound : before.Sound disk)
    (transition : FaultStep disk faults before ⟨after, .returned (.error error)⟩) :
    ∃ stream size out, before = ⟨stream, .await size out⟩ ∧
      ∃ entry ∈ stream.pending, Fails disk faults stream stream.next entry.offset := by
  generalize ends : (⟨after, .returned (.error error)⟩ : Config) = last at transition
  have point : last.point = .returned (.error error) := by rw [← ends]
  cases transition with
  | loop transition =>
      have environment : Config.Sound (reliable disk).disk _ := sound
      exact absurd point (noError_of_step environment id transition error)
  | @reap stream size out _ index request _ _ found =>
      have kept : ShardStream.Sound disk stream := sound.1
      obtain ⟨earlier, entry, later, split, -, -, finished⟩ := kept.awaitOne_answer faults found
      refine ⟨stream, size, out, rfl, entry, by simp [split], ?_⟩
      by_contra healthy
      obtain ⟨completion, data, awaited⟩ := finished healthy
      rw [awaited] at point
      cases point
  | take => exact absurd point (noError_of_take _ _ _ _ error)

/-- Once a failing read is pending, so is the first one. -/
theorem Ahead.pending (ahead : Ahead disk faults position offset stream)
    (sound : Sound disk stream) (stems : Stems start stream)
    (first : FirstFailing disk faults start position offset) {entry : Pending}
    (member : entry ∈ stream.pending) (fails : Fails disk faults stream stream.next entry.offset) :
    stream.next = position ∧ stream.position ≤ offset ∧ offset < stream.windowEnd ∧
      stream.readyAhead disk faults = offset - stream.position := by
  have isOpen := sound.isOpen (List.ne_nil_of_mem member)
  have opened := sound.opened isOpen
  have positive : 0 < stream.block := opened.block ▸ disk.aligned _
  have same (place other : Nat) : Fails disk faults stream place other ↔
      Fails disk faults start place other := by simp only [Fails, stems.shardAt]
  have segments : ∀ other,
      SegmentFrom stream.advance stream.windowEnd stream.position other →
        IsSegment disk start.options (start.shardAt stream.next) other := by
    simpa only [stems.options, stems.shardAt] using ahead.segments isOpen
  have here : stream.next = position := by
    refine Or.resolve_left (ahead.behind.imp_right And.left) fun earlier => ?_
    exact first.earlier _ earlier _ (segments _ (opened.tiled.segment member)) ((same _ _).mp fails)
  obtain ⟨-, segment⟩ := ahead.behind.resolve_left (by omega)
  replace segment := segment isOpen
  rw [here] at segments
  have least : ∀ other ∈ stream.pending, Fails disk faults stream stream.next other.offset →
      offset ≤ other.offset := by
    intro other inside failing
    by_contra earlier
    refine first.before _ (Nat.not_le.mp earlier) (segments _ (opened.tiled.segment inside)) ?_
    rw [← here]
    exact (same _ _).mp failing
  have queued : ∃ other ∈ stream.pending, other.offset = offset := by
    refine (segment.of_tiled opened.tiled).resolve_right fun later => ?_
    have beyond := later.le positive rfl
    have before := opened.tiled.lt_finish positive member
    have bound := least entry member fails
    omega
  have found := opened.tiled.find?_offset
    (fun other => decide (Fails disk faults stream stream.next other)) positive
    (by simpa using least) queued (by simpa [here, same] using first.fails)
  obtain ⟨bad, first, same⟩ := Option.map_eq_some_iff.mp found
  refine ⟨here, segment.le positive rfl, segment.inside, ?_⟩
  simp only [readyAhead, first, same]

/-- What is unread while the failing segment is ahead. -/
theorem unread_eq_following (opened : Opened disk stream) (stems : Stems start stream)
    (isOpen : stream.isOpen = true) (none : stream.carrySize = 0) (here : stream.next = position)
    (reached : stream.position ≤ offset) (inside : offset < stream.windowEnd) :
    stream.unread disk =
      window (disk.content stream.file.path) stream.position (offset - stream.position) ++
        following disk start position offset := by
  have windows : stream.windowsFrom disk = start.windowsFrom disk := by
    funext place
    simp only [windowsFrom, stems.order, stems.shards]
  have split := window_split (disk.content stream.file.path) stream.position
    (show offset - stream.position ≤ stream.windowEnd - stream.position by omega)
  rw [Nat.add_sub_of_le reached, Nat.sub_sub_sub_cancel_right reached] at split
  rw [unread_of_isOpen isOpen, carried_of_carrySize none, List.nil_append, split, following,
    opened.windowEnd, opened.path, here, stems.shardAt, windows, List.append_assoc]

/-- When a call is about to end in an error, it has what was unread before it up to the
bytes that are ready, and the failing segment comes after those. -/
theorem Config.Ahead.at_error {size : Nat} {bytes : List Byte} {config : Config}
    {after : ShardStream} {error : Error}
    (first : FirstFailing disk faults start position offset)
    (ahead : config.Ahead disk faults position offset)
    (faithful : config.Faithful disk start size bytes)
    (failing : FaultStep disk faults config ⟨after, .returned (.error error)⟩) :
    ∃ stream out ready, config = ⟨stream, .await size out⟩ ∧
      ready.length = stream.readyAhead disk faults ∧
      out ++ (ready ++ following disk start position offset) = bytes := by
  obtain ⟨sound, stems, conserves⟩ := faithful
  obtain ⟨stream, asked, out, rfl, entry, member, fails⟩ := failing.fails sound
  obtain ⟨rfl, -, -, none, conserved⟩ := conserves
  have kept : ShardStream.Sound disk stream := sound.1
  have isOpen := kept.isOpen sound.2
  have opened := kept.opened isOpen
  obtain ⟨here, reached, inside, ready⟩ :=
    ShardStream.Ahead.pending ahead kept stems first member fails
  have lasts := first.fails.1
  rw [← ShardStream.Stems.shardAt stems, ← here, ← opened.path] at lasts
  refine ⟨stream, out, _, rfl, ?_, (unread_eq_following opened stems isOpen none here reached
    inside) ▸ conserved⟩
  rw [length_window, ready]
  exact Nat.min_eq_left (Nat.sub_le_sub_right (Nat.le_of_lt lasts) _)

/-- What has been returned, what the call has, and what is ready ahead of the failing
segment are the bytes before it. -/
theorem FailsAfter.accounts {shards : ShardSet} {order : List Nat} {options : BatchOptions}
    {sizes : List Nat} {outs : List (List Byte)} {size : Nat} {config : Config}
    (fails : FailsAfter disk faults (construct shards order options) sizes outs size config)
    (fits : BlocksFit disk (construct shards order options))
    (first : FirstFailing disk faults (construct shards order options) position offset) :
    outs = cut sizes (preceding disk (construct shards order options) position offset) ∧
      ∃ stream out, config = ⟨stream, .await size out⟩ ∧
        sizes.sum + (out.length + stream.readyAhead disk faults) =
          (preceding disk (construct shards order options) position offset).length := by
  obtain ⟨⟨begun, calls, run⟩, _, error, failing⟩ := fails
  have initially : Between (honest disk).disk (construct shards order options) _ :=
    between_construct disk shards order options
  obtain ⟨between, ahead⟩ :=
    calls.ahead first fits ⟨initially, ahead_construct disk faults position offset⟩
  obtain ⟨faithful, within⟩ :=
    run.preserves (FaultStep.keeps first fits) ⟨between.startRead size, ahead.startRead size⟩
  obtain ⟨stream, out, ready, rfl, length, conserved⟩ := within.at_error first faithful failing
  have whole : (construct shards order options).unread disk =
      preceding disk (construct shards order options) position offset ++
        following disk (construct shards order options) position offset :=
    (unread_of_closed rfl).trans (preceding_append_following first.bound first.segment).symm
  obtain ⟨-, returned, left⟩ : _ ∧ outs = cut sizes ((construct shards order options).unread disk) ∧
      begun.unread disk = ((construct shards order options).unread disk).drop sizes.sum :=
    initially.calls rfl fits calls.honest
  rw [left, whole] at conserved
  have some := first.following_pos
  have counted := congrArg List.length conserved
  simp only [List.length_append, List.length_drop, length] at counted
  refine ⟨?_, stream, out, rfl, by omega⟩
  rw [returned, whole, cut_append_of_le sizes _ (by omega)]

/-- Runs that deliver what precedes the failing segment deliver the same batches, if the
same sizes are asked for. -/
theorem DeliversPreceding.unique {demand sizes others : List Nat} {outs got : List (List Byte)}
    {size other : Nat} (first : DeliversPreceding disk start position offset sizes outs size)
    (second : DeliversPreceding disk start position offset others got other)
    (asked : sizes ++ [size] <+: demand) (askedOther : others ++ [other] <+: demand) :
    got = outs := by
  have more {short long : List Nat} {next last : Nat} (shorter : short.length < long.length)
      (asks : short ++ [next] <+: demand) (continues : long ++ [last] <+: demand) :
      short.sum + next ≤ long.sum := by
    have within : short ++ [next] <+: long := by
      refine List.prefix_of_prefix_length_le asks ((List.prefix_append _ _).trans continues) ?_
      rw [List.length_append]
      exact shorter
    obtain ⟨rest, rfl⟩ := within
    simp only [List.sum_append, List.sum_singleton]
    omega
  have notShorter : ¬ sizes.length < others.length := fun shorter => by
    have below := more shorter asked askedOther
    have full := second.full
    have every := first.every
    omega
  have notLonger : ¬ others.length < sizes.length := fun longer => by
    have below := more longer askedOther asked
    have full := first.full
    have every := second.every
    omega
  have same : others = sizes := by
    refine List.IsPrefix.eq_of_length (List.prefix_of_prefix_length_le
      ((List.prefix_append _ _).trans askedOther) ((List.prefix_append _ _).trans asked) ?_) ?_
    · omega
    · omega
  rw [first.batches, second.batches, same]

/-- In every run, whatever the order of the completions: an error comes after every batch
that fits before the failing segment exactly when the batch the call is filling could not
be filled from the segments ahead of it. Runs of which that holds deliver the same. -/
theorem deliversPreceding_iff_starved (disk : Disk) (faults : Faults) {shards : ShardSet}
    {order : List Nat} {options : BatchOptions} (permutes : order.Perm (List.range shards.length))
    (blocks : ∀ shard ∈ shards, HoldsBlock options (disk.alignment shard.path))
    {position offset : Nat}
    (first : FirstFailing disk faults (construct shards order options) position offset)
    {demand sizes : List Nat} {outs : List (List Byte)} {size : Nat} {config : Config}
    (asked : sizes ++ [size] <+: demand)
    (fails : FailsAfter disk faults (construct shards order options) sizes outs size config) :
    (DeliversPreceding disk (construct shards order options) position offset sizes outs size ↔
        config.Starved disk faults) ∧
      ∀ others got other last, others ++ [other] <+: demand →
        FailsAfter disk faults (construct shards order options) others got other last →
          config.Starved disk faults → last.Starved disk faults → got = outs := by
  have fits := blocksFit_construct permutes blocks
  have exact {sizes : List Nat} {outs : List (List Byte)} {size : Nat} {config : Config}
      (fails : FailsAfter disk faults (construct shards order options) sizes outs size config) :
      DeliversPreceding disk (construct shards order options) position offset sizes outs size ↔
        config.Starved disk faults := by
    obtain ⟨batches, stream, out, rfl, counted⟩ := fails.accounts fits first
    constructor
    · intro delivers
      have every := delivers.every
      show out.length + stream.readyAhead disk faults < size
      omega
    · intro (starved : out.length + stream.readyAhead disk faults < size)
      exact ⟨batches, by omega, by omega⟩
  refine ⟨exact fails, fun others got other last askedOther failsOther starved starvedOther => ?_⟩
  exact ((exact fails).mpr starved).unique ((exact failsOther).mpr starvedOther) asked askedOther

/-! ## A read error that comes too early -/

/-- Two blocks of 512 bytes. -/
def twoBlocks : Disk where
  content := fun _ => List.replicate 1024 0
  alignment := fun _ => 512
  aligned := fun _ => by decide
  bounded := fun _ => by
    rw [List.length_replicate]
    decide

/-- Every file has two blocks. -/
theorem twoBlocks_length (path : String) : (twoBlocks.content path).length = 1024 :=
  List.length_replicate

/-- The second block cannot be read. -/
def badBlock : Faults where
  errno := fun _ offset => if offset = 512 then some 5 else none
  nonzero := by
    intro position offset code given
    split at given
    · cases given
      decide
    · cases given

/-- The file in segments of one block, two of them in flight. -/
def twoSegments : ShardStream :=
  construct [⟨"shard", 0, 1024⟩] [0] { batchBytes := 512, segmentBytes := 512, readDepth := 3 }

def twoSegmentsOpening : Opening := ⟨.ok ⟨3, "shard", 512⟩, .ok [0, 512, 1024], .ok ()⟩

def twoSegmentsOpen : ShardStream := (twoSegments.openShard twoSegmentsOpening).2

def twoSegmentsQueued : ShardStream := (twoSegmentsOpen.fillPipeline .accepted).2

/-- The second segment is the first to fail. -/
theorem twoSegments_firstFailing : FirstFailing twoBlocks badBlock twoSegments 0 512 where
  bound := by decide
  segment := .later (by decide) (.here (by decide))
  fails := ⟨by
    rw [twoBlocks_length]
    decide, rfl⟩
  earlier := fun before below => absurd below (Nat.not_lt_zero before)
  before := by
    rintro other below - ⟨-, given⟩
    simp [badBlock, Nat.ne_of_lt below] at given

/-- The second read is reported before the first. -/
theorem twoSegments_failsAfter {size : Nat} (positive : 0 < size) :
    FailsAfter twoBlocks badBlock twoSegments [] [] size ⟨twoSegmentsQueued, .await size []⟩ := by
  have opens : FaultStep twoBlocks badBlock (startRead size twoSegments)
      ⟨twoSegmentsOpen, .loop size []⟩ :=
    .loop (.openShard positive rfl Nat.one_pos twoSegmentsOpening
      (opens_of_calls rfl rfl rfl (by simp) (by simp [twoSegments, construct, flushCarry])))
  have fills : FaultStep twoBlocks badBlock ⟨twoSegmentsOpen, .loop size []⟩
      ⟨twoSegmentsQueued, .await size []⟩ := by
    refine .loop (.fill positive rfl .accepted ?_)
    rintro backend ⟨⟩
    decide
  have reported : answer twoBlocks badBlock twoSegmentsQueued 1 ⟨512, ⟨512, 512⟩, 1⟩ =
      .completed 1 ⟨1, 0, 5⟩ [] := by
    simp [answer, badBlock, twoBlocks_length]
  have front : twoSegmentsQueued.pending.head? = some ⟨0, 0, 0, false⟩ := rfl
  have found : twoSegmentsQueued.inFlight[1]? = some ⟨512, ⟨512, 512⟩, 1⟩ := rfl
  have fails : FaultStep twoBlocks badBlock ⟨twoSegmentsQueued, .await size []⟩
      (afterReap size [] (twoSegmentsQueued.awaitOne _)) := .reap front rfl found
  rw [reported] at fails
  exact ⟨⟨_, .none, (Relation.ReflTransGen.single opens).tail fills⟩, _, _, fails⟩

/-- One segment is ready ahead of it. -/
theorem twoSegments_ready : twoSegmentsQueued.readyAhead twoBlocks badBlock = 512 := by
  have pending : twoSegmentsQueued.pending = [⟨0, 0, 0, false⟩, ⟨512, 1, 0, false⟩] := rfl
  simp [readyAhead, pending, Fails, badBlock, twoBlocks_length, ShardStream.position]

/-- No order of completions fills a batch of both blocks. -/
theorem twoSegments_delivers : DeliversPreceding twoBlocks twoSegments 0 512 [] [] 1024 := by
  have starved : Config.Starved twoBlocks badBlock ⟨twoSegmentsQueued, .await 1024 []⟩ := by
    simp only [Config.Starved, twoSegments_ready]
    decide
  exact (deliversPreceding_iff_starved twoBlocks badBlock (by decide) (by decide)
    twoSegments_firstFailing (List.prefix_refl _)
    (twoSegments_failsAfter (by decide))).1.mpr starved

/-- The first block would have filled the batch. -/
theorem error_before_good_batch : ¬ ∀ (disk : Disk) (faults : Faults) (shards : ShardSet)
    (order : List Nat) (options : BatchOptions) (position offset : Nat) (sizes : List Nat)
    (outs : List (List Byte)) (config : Config),
    order.Perm (List.range shards.length) →
    (∀ shard ∈ shards, HoldsBlock options (disk.alignment shard.path)) →
    FirstFailing disk faults (construct shards order options) position offset →
    (∀ size ∈ sizes, size = options.batchBytes) →
    FailsAfter disk faults (construct shards order options) sizes outs options.batchBytes config →
    DeliversPreceding disk (construct shards order options) position offset sizes outs
      options.batchBytes := by
  intro always
  have delivers := always twoBlocks badBlock _ _ _ _ _ _ _ _ (by decide) (by decide)
    twoSegments_firstFailing (by simp) (twoSegments_failsAfter (by decide))
  have every : (preceding twoBlocks twoSegments 0 512).length < 0 + 512 := delivers.every
  have oneBatch : (preceding twoBlocks twoSegments 0 512).length = 512 := by
    simp [preceding, twoBlocks_length, twoSegments, construct, shardAt]
  omega

end Dsio.ShardStream
