import Dsio.Dataset.StreamInvariant

/-!
# What one step of a read does

`Move` lists the steps a sound stream can take, with what each of them does to it. It
is the only place where the functions of the stream are opened up; every invariant of
a run is proved by cases on it. A step ends in an error only if the environment made
it fail.
-/

namespace Dsio.ShardStream

open Transition

inductive Move (environment : Environment) : Config → Config → Prop where
  | finish {stream size out}
      (ends : size ≤ out.length ∨ stream.isOpen = false ∧ stream.order.length ≤ stream.next) :
      Move environment ⟨stream, .loop size out⟩ ⟨stream, .returned (.ok out)⟩
  | fail {before stream error} (fails : environment.fails) (safe : Safe stream) :
      Move environment before ⟨stream, .returned (.error error)⟩
  | opened {stream after size out} (room : out.length < size) (closed : stream.isOpen = false)
      (more : stream.next < stream.order.length) (begun : Begun stream after)
      (sound : Sound environment.disk after) :
      Move environment ⟨stream, .loop size out⟩ ⟨after, .loop size out⟩
  /-- Nothing is pending and the window has been queued to its end. -/
  | exhausted {stream size out} (room : out.length < size) (isOpen : stream.isOpen = true)
      (empty : stream.pending = []) (ended : stream.windowEnd ≤ stream.nextOffset)
      (spare : true ∈ stream.free) :
      Move environment ⟨stream, .loop size out⟩ ⟨stream.closeShard, .loop size out⟩
  | filled {stream after size out entries} (room : out.length < size)
      (isOpen : stream.isOpen = true) (filled : Filled stream after entries)
      (pending : after.pending ≠ []) :
      Move environment ⟨stream, .loop size out⟩
        ⟨after.submit (entries.map stream.entryRequest), .await size out⟩
  | reaped {stream size out first before entry after index completion data}
      (front : stream.pending.head? = some first) (waits : first.done = false)
      (split : stream.pending = before ++ entry :: after) (waiting : entry.done = false)
      (found : stream.inFlight[index]? = some (stream.entryRequest entry))
      (reports : environment.reports (stream.entryRequest entry).dst.size
        ((environment.disk.content stream.file.path).length - entry.offset) completion.bytes)
      (read : data = Window.window (environment.disk.content stream.file.path) entry.offset
        completion.bytes) :
      Move environment ⟨stream, .await size out⟩
        ⟨{ stream.complete index data with
          pending := before ++ finishEntry stream.windowEnd completion entry :: after },
          .await size out⟩
  | taken {stream size out entry rest} (pending : stream.pending = entry :: rest)
      (done : entry.done = true) :
      Move environment ⟨stream, .await size out⟩
        (afterTake entry size out (stream.takeFront entry (size - out.length)))

variable {environment : Environment}

/-- The backend has room for whatever a fill plans. -/
theorem Sound.fits {disk : Disk} {stream filled : ShardStream} {entries : List Pending}
    (sound : Sound disk stream) (isOpen : stream.isOpen = true)
    (fill : Filled stream filled entries)
    (loop : fillLoop stream.readDepth stream [] = (filled, entries.map stream.entryRequest)) :
    stream.Fits := by
  intro backend found
  obtain ⟨_, some, queueDepth⟩ := (sound.opened isOpen).backend
  rw [found] at some
  cases some
  have matched := sound.matched.length_eq
  have waiting := List.length_filter_le (fun entry => !entry.done) stream.pending
  have bound := sound.bound
  have filledBound := fill.bound
  rw [fill.frame] at filledBound
  simp only [inFlight, found, List.length_map] at matched
  simp only [List.length_append] at filledBound
  simp only [planned, loop, List.length_map, queueDepth]
  omega

/-- A refused submission that queued some of its requests leaves a safe stream. -/
theorem Sound.refused {disk : Disk} {stream filled : ShardStream} {entries : List Pending}
    (sound : Sound disk stream) (isOpen : stream.isOpen = true)
    (fill : Filled stream filled entries) (queued : Nat) :
    Safe { rollBack^[entries.length]
      (filled.submit ((entries.map stream.entryRequest).take queued)) with
      nextOffset := stream.nextOffset } := by
  rw [fill.rollBack]
  have full := (sound.fill isOpen fill).safe
  obtain ⟨backend, found, -⟩ := (sound.opened isOpen).backend
  have isBackend : stream.backend ≠ none := by simp [found]
  refine full.mono ?_ ?_ (by rw [fill.frame]; rfl)
  · have whole : (filled.submit (entries.map stream.entryRequest)).inFlight =
        stream.inFlight ++ entries.map stream.entryRequest := by
      rw [fill.frame]
      exact inFlight_submit isBackend _
    rw [whole, inFlight_submit isBackend]
    exact (List.take_sublist ..).append_left _
  · intro entry member done
    refine ⟨entry, ?_, done, rfl⟩
    rw [fill.frame]
    exact List.mem_append_left _ member

/-- A completion keeps a stream safe. -/
theorem Safe.complete {stream : ShardStream} (safe : Safe stream) (index : Nat)
    (data : List Byte) : Safe (stream.complete index data) := by
  cases found : stream.inFlight[index]? with
  | none =>
      have same : stream.complete index data = stream := by simp only [ShardStream.complete, found]
      rw [same]
      exact safe
  | some request =>
      refine safe.mono ?_ ?_ ?_
      · rw [inFlight_complete found]
        exact List.eraseIdx_sublist ..
      · rw [complete_eq found]
        exact fun entry member done => ⟨entry, member, done, rfl⟩
      · rw [complete_eq found]
        simp [Function.comp_def]

/-- Without a backend nothing is in flight. -/
theorem safe_of_no_backend {stream : ShardStream} (none : stream.backend = none) : Safe stream := by
  have nothing : stream.inFlight = [] := by simp [inFlight, none]
  exact ⟨by simp [nothing], by simp [nothing], by simp [nothing]⟩

/-- A waiting entry has a request in flight. -/
theorem Sound.inFlight_ne_nil {disk : Disk} {stream : ShardStream} (sound : Sound disk stream)
    {entry : Pending} (front : stream.pending.head? = some entry) (waits : entry.done = false) :
    stream.inFlight ≠ [] := by
  intro nothing
  have request : stream.entryRequest entry ∈ stream.inFlight :=
    sound.matched.mem_iff.mpr (List.mem_map.mpr
      ⟨entry, List.mem_filter.mpr ⟨List.mem_of_head? front, by simp [waits]⟩, rfl⟩)
  simp [nothing] at request

/-- The inversion of a step from a sound stream. -/
theorem move_of_step {before after : Config} (sound : before.Sound environment.disk)
    (transition : Step environment before after) : Move environment before after := by
  cases transition with
  | finish ends => exact .finish ends
  | openShard room closed more opening allowed =>
      rcases Sound.openShard sound closed more allowed with
        ⟨error, after, same, none, fails⟩ | ⟨after, same, sound, begun⟩
      · rw [same]
        exact .fail fails (safe_of_no_backend none)
      · rw [same]
        exact .opened room closed more begun sound
  | @fill stream size out room isOpen submission allowed =>
      obtain ⟨filled, entries, fill, saturated, loop, cases'⟩ := fillPipeline_spec submission stream
      have accepts (handed : stream.fillPipeline submission =
          (.ok (), filled.submit (entries.map stream.entryRequest))) :
          Move environment ⟨stream, .loop size out⟩
            (afterFill size out (stream.fillPipeline submission)) := by
        rw [handed]
        by_cases empty : filled.pending = []
        · obtain ⟨none, rfl, rfl, ended, spare⟩ :=
            Sound.exhausted sound isOpen fill saturated empty
          rw [List.map_nil, submit_nil, afterFill, if_pos none]
          exact .exhausted room isOpen none ended spare
        · have some : (filled.submit (entries.map stream.entryRequest)).pending ≠ [] := empty
          rw [afterFill, if_neg some]
          exact .filled room isOpen fill empty
      rcases cases' with ⟨rfl, handed⟩ | ⟨-, -, handed⟩ | ⟨error, queued, -, rfl, handed⟩
      · exact accepts (by simpa using handed)
      · exact accepts handed
      · rw [handed]
        exact .fail (allowed.resolve_right fun short => short (Sound.fits sound isOpen fill loop))
          (Sound.refused sound isOpen fill queued)
  | @reap stream size out entry front waits reaped allowed =>
      cases reaped with
      | failed error => exact .fail allowed sound.1.safe
      | nothing => exact absurd allowed (sound.1.inFlight_ne_nil front waits)
      | completed index completion data =>
          obtain ⟨request, found, token, read, reports⟩ := allowed
          obtain ⟨before, finished, after, split, waiting, rfl, same⟩ :=
            sound.1.awaitOne found token data
          rw [same]
          rcases reports with ⟨ok, reports⟩ | ⟨failed, -, fails⟩
          · rw [if_neg (by simpa using ok)]
            exact .reaped front waits split waiting found reports read
          · rw [if_pos failed]
            exact .fail fails (sound.1.safe.complete index data)
  | @take stream size out entry front done =>
      obtain ⟨rest, pending⟩ : ∃ rest, stream.pending = entry :: rest := by
        cases pending : stream.pending with
        | nil => simp [pending] at front
        | cons first rest =>
            rw [pending, List.head?_cons, Option.some.injEq] at front
            exact ⟨rest, by rw [front]⟩
      exact .taken pending done

/-- A step keeps the invariant. -/
theorem Config.Sound.step {before after : Config} (sound : before.Sound environment.disk)
    (transition : Step environment before after) : after.Sound environment.disk := by
  cases move_of_step sound transition with
  | finish => exact sound
  | fail fails safe => exact safe
  | opened _ _ _ _ soundAfter => exact soundAfter
  | exhausted _ _ _ _ spare => exact ShardStream.Sound.closeShard sound spare
  | filled _ isOpen fill pending => exact ⟨ShardStream.Sound.fill sound isOpen fill, pending⟩
  | reaped _ _ split waiting found =>
      exact ⟨sound.1.finished found split waiting rfl _ _, by simp⟩
  | @taken stream size out entry rest pending done =>
      obtain ⟨kept, spare⟩ := sound.1.takeFront pending done (size - out.length)
      simp only [afterTake]
      split
      · exact kept
      · split
        · exact kept.closeShard spare
        · exact kept

/-- A call begins with a sound stream. -/
theorem Sound.startRead {disk : Disk} {stream : ShardStream} (sound : Sound disk stream)
    (size : Nat) : (startRead size stream).Sound disk := sound.flushCarry size

/-- The invariant holds at every point of a call. -/
theorem Config.Sound.of_reaches {before after : Config} (sound : before.Sound environment.disk)
    (run : Reaches (Step environment) before after) : after.Sound environment.disk :=
  run.preserves Config.Sound.step sound

/-- The invariant holds at every point of every call. -/
theorem Visits.sound {start : ShardStream} {config : Config}
    (visits : Visits environment start config) (sound : Sound environment.disk start) :
    config.Sound environment.disk :=
  visits.preserves (Sound environment.disk) (Config.Sound environment.disk) sound
    (fun sound => sound.startRead _) Config.Sound.step id

/-- The invariant holds between the calls. -/
theorem Calls.sound {start stream : ShardStream} {sizes : List Nat} {outs : List (List Byte)}
    (calls : Calls environment start sizes outs stream) (sound : Sound environment.disk start) :
    Sound environment.disk stream :=
  calls.preserves (Sound environment.disk) (Config.Sound environment.disk) sound
    (fun sound => sound.startRead _) Config.Sound.step id

/-! ## What never changes -/

/-- The members set by the constructor only. -/
structure Stems (start stream : ShardStream) : Prop where
  shards : stream.shards = start.shards
  order : stream.order = start.order
  options : stream.options = start.options

/-- The shards stay where they are in the order. -/
theorem Stems.shardAt {start stream : ShardStream} (stems : Stems start stream) (position : Nat) :
    stream.shardAt position = start.shardAt position := by
  simp only [ShardStream.shardAt, stems.shards, stems.order]

/-- What a call does not change, short of an error. -/
def Config.Stems (start : ShardStream) (config : Config) : Prop :=
  match config.point with
  | .returned (.error _) => True
  | _ => ShardStream.Stems start config.stream

/-- Handing out the carry changes no option and no shard. -/
theorem Stems.startRead {start stream : ShardStream} (stems : Stems start stream) (size : Nat) :
    (startRead size stream).Stems start := by
  obtain ⟨carry, carrySize, same⟩ := flushCarry_frame size stream
  rw [ShardStream.startRead, same]
  exact ⟨stems.shards, stems.order, stems.options⟩

/-- Taking an entry changes no option and no shard. -/
theorem Stems.takeFront {start stream : ShardStream} (stems : Stems start stream)
    (entry : Pending) (room : Nat) : Stems start (stream.takeFront entry room).2.2 := by
  obtain ⟨carry, carrySize, same⟩ := stream.takeFront_frame entry room
  rw [same]
  exact ⟨stems.shards, stems.order, stems.options⟩

/-- Closing a shard changes no option and no shard. -/
theorem Stems.closeShard {start stream : ShardStream} (stems : Stems start stream) :
    Stems start stream.closeShard :=
  ⟨stems.shards, stems.order, stems.options⟩

/-- No step short of an error changes an option or a shard. -/
theorem Move.stems {start : ShardStream} {before after : Config}
    (stems : before.Stems start) (move : Move environment before after) : after.Stems start := by
  cases move with
  | finish => exact stems
  | fail => trivial
  | @opened stream after _ _ _ _ _ begun =>
      obtain ⟨shards, order, options⟩ : ShardStream.Stems start stream := stems
      show ShardStream.Stems start after
      rw [begun]
      exact ⟨shards, order, options⟩
  | @exhausted stream =>
      obtain ⟨shards, order, options⟩ : ShardStream.Stems start stream := stems
      exact ⟨shards, order, options⟩
  | @filled stream after _ _ _ _ _ filled =>
      obtain ⟨shards, order, options⟩ : ShardStream.Stems start stream := stems
      show ShardStream.Stems start (submit _ after)
      rw [filled.frame]
      exact ⟨shards, order, options⟩
  | @reaped stream _ _ _ _ _ _ _ _ _ _ _ _ _ found =>
      obtain ⟨shards, order, options⟩ : ShardStream.Stems start stream := stems
      rw [complete_eq found]
      exact ⟨shards, order, options⟩
  | @taken stream size out entry =>
      have kept : ShardStream.Stems start (stream.takeFront entry (size - out.length)).2.2 :=
        ShardStream.Stems.takeFront stems entry _
      simp only [afterTake]
      split
      · exact kept
      · split
        · exact kept.closeShard
        · exact kept

/-- The two invariants together hold wherever calls on a sound stream get to. -/
theorem Visits.stems {start : ShardStream} {config : Config}
    (visits : Visits environment start config) (sound : Sound environment.disk start) :
    config.Stems start := by
  have both : config.Sound environment.disk ∧ config.Stems start :=
    visits.preserves
      (fun stream => ShardStream.Sound environment.disk stream ∧ Stems start stream)
      (fun config => config.Sound environment.disk ∧ config.Stems start)
      ⟨sound, rfl, rfl, rfl⟩ (fun both => ⟨both.1.startRead _, both.2.startRead _⟩)
      (fun both transition =>
        ⟨both.1.step transition, (move_of_step both.1 transition).stems both.2⟩) id
  exact both.2

end Dsio.ShardStream
