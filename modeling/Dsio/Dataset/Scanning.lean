import Dsio.Dataset.Epochs
import Dsio.Dataset.Segments
import Dsio.Library.Run
import Dsio.Library.Scan

/-!
# What a pass asks of the files

The requests of a stream scan the windows of its shards in the order of the stream, a segment
at a time and whatever becomes of the reads. So a call of `for_each_batch` asks for no byte of
a window twice, and one that has delivered everything has asked for each exactly once.
-/

namespace Dsio

open Transition Window Scan

namespace ShardStream

variable {environment : Environment} {disk : Disk} {start stream : ShardStream}

/-- The windows in the order of the stream. A file has bytes up to its end. -/
def regions (disk : Disk) (start : ShardStream) (place : Nat) : Region where
  first := (start.shardAt place).offset
  last := (start.shardAt place).end
  available := (disk.content (start.shardAt place).path).length

def asked (place : Nat) (request : ReadRequest) : Ask :=
  ⟨place, request.offset, request.dst.size⟩

/-- The requests that came to be in flight, whether or not their submission was accepted. -/
def asks (before after : ShardStream) : List Ask :=
  (after.inFlight.drop before.inFlight.length).map (asked before.next)

/-- How far the open shard has been asked for. -/
def frontier (stream : ShardStream) : Option Nat :=
  if stream.isOpen then some stream.nextOffset else none

/-- A step after which no more is in flight asks for nothing. -/
theorem asks_eq_nil {before after : ShardStream}
    (fewer : after.inFlight.length ≤ before.inFlight.length) : asks before after = [] := by
  rw [asks, List.drop_eq_nil_of_le fewer, List.map_nil]

/-- A step that leaves the backend asks for nothing. -/
theorem asks_of_backend {before after : ShardStream} (same : after.backend = before.backend) :
    asks before after = [] :=
  asks_eq_nil (by rw [inFlight, same, inFlight])

/-- Without a backend nothing is asked for. -/
theorem asks_of_no_backend {before after : ShardStream} (none : after.backend = none) :
    asks before after = [] :=
  asks_eq_nil (by simp [inFlight, none])

/-- The asks so far are those of a scan, which has got to where the stream is unless the
stream has failed. -/
def Config.Scanned (disk : Disk) (start : ShardStream) (issued : List Ask) (config : Config) :
    Prop :=
  match config.point with
  | .returned (.error _) => ∃ next frontier, Scans (regions disk start) issued next frontier
  | _ => Scans (regions disk start) issued config.stream.next config.stream.frontier

variable {issued : List Ask}

/-- What has been asked for is a scan, at every point of a call. -/
theorem Config.Scanned.exists {config : Config} (scanned : config.Scanned disk start issued) :
    ∃ next frontier, Scans (regions disk start) issued next frontier := by
  obtain ⟨stream, point⟩ := config
  cases point with
  | loop | await => exact ⟨_, _, scanned⟩
  | returned got =>
      cases got with
      | ok => exact ⟨_, _, scanned⟩
      | error => exact scanned

/-! ## Fills -/

/-- The front of a tiling is one. -/
theorem Tiled.take {advance : Nat → Nat} {windowEnd begins finish : Nat} {entries : List Pending}
    (tiled : Tiled advance windowEnd begins entries finish) (count : Nat) :
    ∃ middle, Tiled advance windowEnd begins (entries.take count) middle := by
  induction entries generalizing begins count with
  | nil => exact ⟨begins, by simp [Tiled]⟩
  | cons entry rest ih =>
      cases count with
      | zero => exact ⟨begins, rfl⟩
      | succ count =>
          obtain ⟨middle, more⟩ := ih tiled.2.2 count
          exact ⟨middle, tiled.1, tiled.2.1, more⟩

/-- The requests of tiled entries go on with the scan. -/
theorem Opened.scans (opened : Opened disk stream) (stems : Stems start stream)
    {begins finish : Nat} {entries : List Pending}
    (tiled : Tiled stream.advance stream.windowEnd begins entries finish)
    (scans : Scans (regions disk start) issued stream.next (some begins)) :
    Scans (regions disk start)
      (issued ++ (entries.map stream.entryRequest).map (asked stream.next)) stream.next
      (some finish) := by
  have last : (regions disk start stream.next).last = stream.windowEnd := by
    rw [opened.windowEnd, stems.shardAt]
    rfl
  induction entries generalizing begins issued with
  | nil =>
      cases tiled
      simpa using scans
  | cons entry rest ih =>
      obtain ⟨rfl, inside, more⟩ := tiled
      have next := scans.ask (last ▸ inside)
        (stream.requestLength (stream.windowEnd - entry.offset))
      rw [last] at next
      simpa [asked, entryRequest, bufferSpan] using ih more next

/-- The requests a fill of an open shard hands over go on with the scan, also when the
submission takes only some of them and fails. -/
theorem Config.Scanned.fill {size : Nat} {out : List Byte}
    (sound : ShardStream.Sound disk stream) (stems : ShardStream.Stems start stream)
    (isOpen : stream.isOpen = true)
    (scanned : Config.Scanned disk start issued ⟨stream, .loop size out⟩)
    (submission : Submission) :
    (afterFill size out (stream.fillPipeline submission)).Scanned disk start
      (issued ++ asks stream (afterFill size out (stream.fillPipeline submission)).stream) := by
  have opened := sound.opened isOpen
  obtain ⟨backend, found, -⟩ := opened.backend
  have isBackend : stream.backend ≠ none := by simp [found]
  have scans : Scans (regions disk start) issued stream.next (some stream.nextOffset) := by
    have scans : Scans (regions disk start) issued stream.next stream.frontier := scanned
    rwa [frontier, if_pos isOpen] at scans
  obtain ⟨filled, entries, fill, saturated, -, cases'⟩ := fillPipeline_spec submission stream
  have handed (requests : List ReadRequest) :
      (filled.submit requests).inFlight = stream.inFlight ++ requests := by
    rw [fill.frame]
    exact inFlight_submit isBackend requests
  have accepted : (afterFill size out
      (.ok (), filled.submit (entries.map stream.entryRequest))).Scanned disk start (issued ++
        asks stream (afterFill size out
          (.ok (), filled.submit (entries.map stream.entryRequest))).stream) := by
    by_cases empty : filled.pending = []
    · obtain ⟨none, rfl, rfl, ended, -⟩ := Sound.exhausted sound isOpen fill saturated empty
      rw [List.map_nil, submit_nil, afterFill, if_pos none,
        asks_of_no_backend (by rw [closeShard_eq]), List.append_nil]
      refine Scans.leave scans (Nat.le_trans (Nat.min_le_left ..) ?_)
      rw [opened.windowEnd, stems.shardAt] at ended
      exact ended
    · have some : (filled.submit (entries.map stream.entryRequest)).pending ≠ [] := empty
      rw [afterFill, if_neg some]
      have asked : asks stream (filled.submit (entries.map stream.entryRequest)) =
          (entries.map stream.entryRequest).map (asked stream.next) := by
        rw [asks, handed, List.drop_left]
      have next := opened.scans stems fill.tiled scans
      rw [← asked] at next
      have same : (filled.submit (entries.map stream.entryRequest)).next = stream.next ∧
          (filled.submit (entries.map stream.entryRequest)).frontier =
            .some filled.nextOffset := by
        rw [fill.frame]
        exact ⟨rfl, if_pos isOpen⟩
      show Scans _ _ (filled.submit (entries.map stream.entryRequest)).next _
      rw [same.1, same.2]
      exact next
  rcases cases' with ⟨rfl, done⟩ | ⟨-, -, done⟩ | ⟨error, queued, -, -, done⟩
  · rw [done]
    simpa using accepted
  · rw [done]
    exact accepted
  · rw [done, fill.rollBack]
    have asked : asks stream (stream.submit ((entries.map stream.entryRequest).take queued)) =
        ((entries.take queued).map stream.entryRequest).map (asked stream.next) := by
      rw [asks, inFlight_submit isBackend, List.drop_left, ← List.map_take]
    obtain ⟨middle, tiled⟩ := fill.tiled.take queued
    have next := opened.scans stems tiled scans
    rw [← asked] at next
    exact ⟨_, _, next⟩

/-! ## Calls -/

/-- A front entry without bytes lies behind the end of its file. -/
theorem Genuine.ended {entry : Pending} {rest : List Pending} (genuine : Genuine disk stream)
    (sound : Sound disk stream) (pending : stream.pending = entry :: rest)
    (done : entry.done = true) (zero : entry.bytes = 0) :
    (disk.content stream.file.path).length ≤ stream.nextOffset := by
  have isOpen := sound.isOpen (by simp [pending])
  have opened := sound.opened isOpen
  have positive : 0 < stream.block := opened.block ▸ disk.aligned _
  have finished := (genuine entry (pending ▸ List.mem_cons_self) done).bytes
  obtain ⟨-, front, -⟩ := window_at_position sound pending isOpen
    (disk.content stream.file.path)
  have before : entry.offset < stream.nextOffset :=
    opened.tiled.lt_finish positive (pending ▸ List.mem_cons_self)
  rw [zero, length_window] at finished
  omega

/-- Waiting asks for nothing. -/
theorem awaitOne_frame (reaped : Reaped) (stream : ShardStream) :
    (stream.awaitOne reaped).2.next = stream.next ∧
      (stream.awaitOne reaped).2.frontier = stream.frontier ∧
      (stream.awaitOne reaped).2.inFlight.length ≤ stream.inFlight.length := by
  cases reaped with
  | failed | nothing => exact ⟨rfl, rfl, Nat.le_refl _⟩
  | completed index completion data =>
      have completed : (stream.complete index data).next = stream.next ∧
          (stream.complete index data).frontier = stream.frontier ∧
          (stream.complete index data).inFlight.length ≤ stream.inFlight.length := by
        cases found : stream.inFlight[index]? with
        | none =>
            have same : stream.complete index data = stream := by
              simp only [ShardStream.complete, found]
            rw [same]
            exact ⟨rfl, rfl, Nat.le_refl _⟩
        | some request =>
            rw [inFlight_complete found, complete_eq found]
            exact ⟨rfl, rfl, (List.eraseIdx_sublist ..).length_le⟩
      simp only [awaitOne]
      cases marked : (stream.complete index data).markDone completion with
      | none => exact completed
      | some after =>
          simp only [markDone, Option.map_eq_some_iff] at marked
          obtain ⟨_, -, rfl⟩ := marked
          dsimp only
          split
          · exact completed
          · exact completed

/-- What a step asks for continues the scan. -/
theorem Config.Scanned.step {size : Nat} {bytes : List Byte} {before after : Config}
    (faithful : before.Faithful environment.disk start size bytes)
    (scanned : before.Scanned environment.disk start issued)
    (transition : Step environment before after) :
    after.Scanned environment.disk start (issued ++ asks before.stream after.stream) := by
  have sound := faithful.sound
  have stems := faithful.stems
  cases transition with
  | finish =>
      rw [asks_of_backend rfl, List.append_nil]
      exact scanned
  | @openShard stream size out room closed more opening allowed =>
      have scans : Scans (regions environment.disk start) issued stream.next stream.frontier :=
        scanned
      rcases Sound.openShard sound closed more allowed with
        ⟨error, after, same, none, -⟩ | ⟨after, same, soundAfter, begun⟩
      · rw [same, afterOpen, asks_of_no_backend none, List.append_nil]
        exact ⟨_, _, scans⟩
      · have none : after.inFlight = [] := by
          have pending : after.pending = [] := by
            rw [begun]
            exact (Sound.closed sound closed).2
          have matched := soundAfter.matched
          rwa [pending, List.filter_nil, List.map_nil, List.perm_nil] at matched
        rw [same, afterOpen, asks_eq_nil (by simp [none]), List.append_nil]
        have frontier :
            after.frontier = some (regions environment.disk start stream.next).first := by
          rw [begun, ShardStream.frontier, if_pos rfl, Stems.shardAt stems]
          rfl
        have next : after.next = stream.next := by rw [begun]
        rw [ShardStream.frontier, if_neg (by simp [closed])] at scans
        show Scans _ _ after.next after.frontier
        rw [next, frontier]
        exact scans.enter
  | fill room isOpen submission => exact scanned.fill sound stems isOpen submission
  | @reap stream size out entry front waits reaped allowed =>
      have scans : Scans (regions environment.disk start) issued stream.next stream.frontier :=
        scanned
      obtain ⟨next, frontier, fewer⟩ := awaitOne_frame reaped stream
      generalize stream.awaitOne reaped = got at next frontier fewer ⊢
      obtain ⟨outcome, after⟩ := got
      have nothing : asks stream after = [] := asks_eq_nil fewer
      rw [← next, ← frontier] at scans
      cases outcome with
      | error => rw [afterReap, nothing, List.append_nil]; exact ⟨_, _, scans⟩
      | ok => rw [afterReap, nothing, List.append_nil]; exact scans
  | @take stream size out entry front done =>
      have scans : Scans (regions environment.disk start) issued stream.next stream.frontier :=
        scanned
      obtain ⟨rest, pending⟩ := List.head?_eq_some_iff.mp front
      have isOpen := ShardStream.Sound.isOpen sound.1 (by simp [pending])
      have opened := ShardStream.Sound.opened sound.1 isOpen
      obtain ⟨next, frontier, backend⟩ :
          (stream.takeFront entry (size - out.length)).2.2.next = stream.next ∧
          (stream.takeFront entry (size - out.length)).2.2.frontier = stream.frontier ∧
          (stream.takeFront entry (size - out.length)).2.2.backend = stream.backend := by
        obtain ⟨carry, carrySize, same⟩ := stream.takeFront_frame entry (size - out.length)
        rw [same]
        exact ⟨rfl, rfl, rfl⟩
      generalize stream.takeFront entry (size - out.length) = taken at next frontier backend ⊢
      obtain ⟨copied, left, after⟩ := taken
      have kept := asks_of_backend backend
      rw [← next, ← frontier] at scans
      simp only [afterTake]
      split
      · rw [kept, List.append_nil]
        exact scans
      · split
        · next zero =>
          -- the file has ended, so there is nothing left of the window to ask for
          obtain ⟨-, ⟨genuine, -⟩, -⟩ := faithful.conserves
          have ended := genuine.ended sound.1 pending done zero
          rw [opened.path, ShardStream.Stems.shardAt stems] at ended
          rw [asks_of_no_backend (by rw [closeShard_eq]), List.append_nil]
          rw [next, frontier, ShardStream.frontier, if_pos isOpen] at scans
          have left := scans.leave (Nat.le_trans (Nat.min_le_right ..) ended)
          rw [← next] at left
          exact left
        · rw [kept, List.append_nil]
          exact scans

/-! ## The end of the stream -/

/-- Where nothing is unread the files have nothing of the windows. -/
theorem length_windowOf_of_unread {stream : ShardStream} {begins place : Nat}
    (nothing : stream.windowsFrom disk begins = []) (beyond : begins ≤ place)
    (bound : place < stream.order.length) : (disk.windowOf (stream.shardAt place)).length = 0 := by
  have member : stream.order[place] ∈ stream.order.drop begins := by
    have dropped : place - begins < (stream.order.drop begins).length := by
      rw [List.length_drop]
      omega
    have here : (stream.order.drop begins)[place - begins] = stream.order[place] := by
      simp [Nat.add_sub_of_le beyond]
    exact here ▸ List.getElem_mem dropped
  have empty := List.flatMap_eq_nil_iff.mp nothing _ member
  have shard : stream.shardAt place = (stream.shards[stream.order[place]]?).getD {} := by
    simp [shardAt, bound]
  rw [shard, empty, List.length_nil]

/-- A stream that has nothing unread is past every byte. -/
theorem Sound.past (sound : Sound disk stream) (stems : Stems start stream)
    (nothing : stream.unread disk = []) {place offset : Nat} (bound : place < start.order.length)
    (inside : offset < (regions disk start place).last)
    (least : (regions disk start place).first ≤ offset)
    (available : offset < (regions disk start place).available) :
    Past stream.next stream.frontier place offset := by
  have bytes : (disk.windowOf (stream.shardAt place)).length ≠ 0 := by
    rw [stems.shardAt, Disk.windowOf, length_window]
    simp only [regions] at inside least available
    omega
  rw [← stems.order] at bound
  rcases Nat.lt_or_ge place stream.next with before | ahead
  · exact .inl before
  cases isOpen : stream.isOpen with
  | false =>
      rw [unread_of_closed isOpen] at nothing
      have none := (List.append_eq_nil_iff.mp nothing).2
      exact absurd (length_windowOf_of_unread none ahead bound) bytes
  | true =>
      have opened := sound.opened isOpen
      rw [unread_of_isOpen isOpen, List.append_eq_nil_iff, List.append_eq_nil_iff] at nothing
      rcases Nat.lt_or_eq_of_le ahead with later | rfl
      · exact absurd (length_windowOf_of_unread nothing.2.2 later bound) bytes
      · refine .inr ⟨rfl, stream.nextOffset, if_pos isOpen, ?_⟩
        have positive : 0 < stream.block := opened.block ▸ disk.aligned _
        have behind := (opened.tiled.le positive).1
        have rest := congrArg List.length nothing.2.1
        rw [length_window, List.length_nil, opened.windowEnd, opened.path, stems.shardAt] at rest
        simp only [regions] at inside available
        omega

end ShardStream

namespace ForEachBatch

open Pipeline ShardStream

namespace Interleaved

variable {environment : Environment} {options : BatchOptions} {callback : Nat → CallbackResult}
variable {initial : ShardStream} {prefetch : Nat} {issued : List Ask}
variable {before after interleaved : Interleaved ShardStream Config}

/-- What a step of either thread asks of the files. -/
def asks (before after : Interleaved ShardStream Config) : List Ask :=
  ShardStream.asks (before.stream Config.stream) (after.stream Config.stream)

/-- The asks of a call so far are those of a scan, which has got to where the stream is
unless a read has failed. -/
def Scanned (disk : Disk) (initial : ShardStream) (issued : List Ask)
    (interleaved : Interleaved ShardStream Config) : Prop :=
  match interleaved.call with
  | some config => config.Scanned disk initial issued
  | none => (∃ next frontier, Scans (regions disk initial) issued next frontier) ∧
      ((∀ error, .outcome (.error error) ∉ interleaved.state.log) →
        Scans (regions disk initial) issued interleaved.state.stream.next
          interleaved.state.stream.frontier)

/-- The read in progress returns what is next in the stream. -/
theorem Kept.faithful_call
    (kept : Kept environment options callback initial prefetch interleaved)
    (initially : Between environment.disk initial initial)
    (full : environment.reports = fullReads) (fits : BlocksFit environment.disk initial)
    {config : Config} (busy : interleaved.call = some config) :
    ∃ bytes, config.Faithful environment.disk initial options.batchBytes bytes := by
  obtain ⟨⟨batch, reading⟩, run⟩ := kept.within.2 config busy
  obtain ⟨sizes, outs, calls⟩ := kept.steady.tracks.calls_of_mayRead (by rw [reading]; rfl)
  obtain ⟨between, -⟩ := initially.calls full fits calls
  exact ⟨_, run.preserves (Config.Faithful.step full fits) (between.startRead _)⟩

/-- Neither thread asks for anything outside a read. -/
theorem Scanned.quiet {state next : State ShardStream} {call : Option Config}
    (scanned : Scanned environment.disk initial issued ⟨state, call⟩)
    (stream : next.stream = state.stream) (log : next.log = state.log) :
    Scanned environment.disk initial (issued ++ asks ⟨state, call⟩ ⟨next, call⟩) ⟨next, call⟩ := by
  have nothing : asks ⟨state, call⟩ ⟨next, call⟩ = [] := by
    cases call with
    | none => exact asks_of_backend (by simp [Interleaved.stream, stream])
    | some => exact asks_of_backend rfl
  rw [nothing, List.append_nil]
  cases call with
  | none => simpa only [Scanned, stream, log] using scanned
  | some => exact scanned

/-- Every step of the two threads continues the scan. -/
theorem Scanned.step (kept : Kept environment options callback initial prefetch before)
    (initially : Between environment.disk initial initial)
    (full : environment.reports = fullReads) (fits : BlocksFit environment.disk initial)
    (scanned : Scanned environment.disk initial issued before)
    (transition : Step (reader environment options) callback before after) :
    Scanned environment.disk initial (issued ++ asks before after) after := by
  cases transition with
  | worker moves =>
      cases workerMove_of_step moves <;> exact scanned.quiet rfl rfl
  | consumer moves =>
      cases consumerMove_of_step moves <;> exact scanned.quiet rfl rfl
  | @enter state batch point =>
      have unfailed : ∀ error, .outcome (.error error) ∉ state.log := by
        intro error
        cases kept.steady.tracks with
        | reading outs log =>
            have logged : state.log = logOf outs := log
            simp [logged, logOf]
        | failed _ _ _ _ _ _ ended => simp [point, mayRead] at ended
      have scans := scanned.2 unfailed
      obtain ⟨carry, carrySize, same⟩ := flushCarry_frame options.batchBytes state.stream
      have nothing : asks ⟨state, none⟩
          ⟨state, some (startRead options.batchBytes state.stream)⟩ = [] := by
        refine asks_of_backend ?_
        simp only [Interleaved.stream, startRead, same]
      show Scanned _ _ (issued ++ asks ⟨state, none⟩
        ⟨state, some (startRead options.batchBytes state.stream)⟩) _
      rw [nothing, List.append_nil]
      show Scans _ _ (state.stream.flushCarry options.batchBytes).2.next
        (state.stream.flushCarry options.batchBytes).2.frontier
      rw [same]
      exact scans
  | @read state config next moves =>
      obtain ⟨bytes, faithful⟩ := kept.faithful_call initially full fits rfl
      exact Config.Scanned.step faithful scanned moves
  | @leave state batch config result stream point leaves =>
      obtain ⟨got, rfl, rfl⟩ := leaves
      have nothing : asks ⟨state, some ⟨stream, .returned got⟩⟩ ⟨{ state with
          stream
          worker := afterRead batch (.outcome got)
          log := state.log ++ [.outcome got] }, none⟩ = [] := asks_of_backend rfl
      rw [nothing, List.append_nil]
      refine ⟨Config.Scanned.exists scanned, fun unfailed => ?_⟩
      cases got with
      | ok out => exact scanned
      | error error =>
          exact (unfailed error (List.mem_append_right _ (List.mem_singleton_self _))).elim
  | idle idles => exact idles.elim

/-- A worker that came to the end of the stream has left nothing unread. -/
theorem unread_of_ended {state : State ShardStream}
    (tracks : Tracks environment options initial state)
    (initially : Between environment.disk initial initial)
    (full : environment.reports = fullReads) (fits : BlocksFit environment.disk initial)
    (positive : 0 < options.batchBytes) (ended : Ended state.log none) :
    Between environment.disk initial state.stream ∧
      state.stream.unread environment.disk = [] := by
  obtain ⟨goods, logged⟩ : ∃ goods, state.log = goods ++ [.outcome (.ok [])] := by
    obtain ⟨goods, got, -, log, -, ⟨rfl, -⟩ | ⟨error, -, set⟩⟩ := ended.split
    · exact ⟨goods, log⟩
    · cases set
  have whole := tracks.whole initially full fits positive logged
  cases tracks with
  | failed outs stream error log =>
      rw [logged] at log
      cases (List.append_inj' log rfl).2
  | reading outs log calls =>
      obtain ⟨between, cuts, rest⟩ := initially.calls full fits calls
      refine ⟨between, ?_⟩
      -- the reads were long enough for all of it
      rw [log, flatten_batches_logOf, cuts, flatten_cut, List.take_eq_self_iff] at whole
      rw [rest, List.drop_eq_nil_of_le whole]

variable {shuffle : Nat → List Nat → List Nat} {shards : ShardSet} {first : State ShardStream}

/-- On every schedule and whatever fails, no byte of a window is asked for twice. A call that
returned ok and that its callback did not stop has asked for each byte of every window its
file has exactly once. -/
theorem windows_asked_once (full : environment.reports = fullReads)
    (shuffles : ∀ seed order, (shuffle seed order).Perm order)
    (begins : begin shuffle shards options = .ok first)
    (blocks : ∀ shard ∈ shards, HoldsBlock options (environment.disk.alignment shard.path))
    (run : Emits (Step (reader environment options) callback) asks ⟨first, none⟩ issued
      interleaved) {place offset : Nat} {shard : Shard}
    (placed : shard = first.stream.shardAt place) (inside : offset < shard.end) :
    issued.countP (Ask.Covers place offset) ≤ 1 ∧
      (interleaved.state.consumer = .returned .ok → (∀ call, callback call ≠ .stop) →
        place < shards.length → shard.offset ≤ offset →
        offset < (environment.disk.content shard.path).length →
        issued.countP (Ask.Covers place offset) = 1) := by
  have permutes : (streamOrder shuffle shards options).Perm (List.range shards.length) :=
    streamOrder_perm shuffles
  have accepted := begins
  obtain ⟨positive, some, -, rfl⟩ := begin_eq_ok accepted
  subst placed
  have initially := between_construct environment.disk shards
    (streamOrder shuffle shards options) options
  have fits := blocksFit_construct permutes blocks
  obtain ⟨kept, scanned⟩ := @Emits.preserves _ _ _ _ _ _
    (fun issued interleaved => Kept environment options callback
        (construct shards (streamOrder shuffle shards options) options) options.prefetch
        interleaved ∧
      Scanned environment.disk (construct shards (streamOrder shuffle shards options) options)
        issued interleaved) _ run
    (fun both transition => ⟨both.1.step transition,
      both.2.step both.1 initially full fits transition⟩)
    ⟨⟨within_idle .., steady_start ..⟩, ⟨_, _, .start⟩, fun _ => .start⟩
  constructor
  · cases call : interleaved.call with
    | none =>
        rw [Scanned, call] at scanned
        obtain ⟨next, frontier, scans⟩ := scanned.1
        exact scans.countP_le_one inside
    | some config =>
        rw [Scanned, call] at scanned
        obtain ⟨next, frontier, scans⟩ := Config.Scanned.exists scanned
        exact scans.countP_le_one inside
  · intro returned neverStops bound least available
    obtain ⟨state, reached, same, -⟩ := simulates.reaches (within_idle ..) run.reaches
    subst same
    obtain ⟨-, ended, reported⟩ := result_of_returned begins neverStops reached returned (by simp)
    have done := kept.done initially full fits positive returned
    have unfailed : interleaved.state.error = none := by
      cases error : interleaved.state.error with
      | none => rfl
      | some failure =>
          rw [error] at reported
          cases reported
    rw [unfailed] at ended
    obtain ⟨between, nothing⟩ :=
      unread_of_ended kept.steady.tracks initially full fits positive ended
    rw [Scanned, done.idle] at scanned
    have scans := scanned.2 fun error failed => by
      have set := (ended.error_iff error).mpr failed
      cases set
    have here : place < (streamOrder shuffle shards options).length := by
      simpa [permutes.length_eq] using bound
    exact scans.countP_eq_one inside least available
      (between.sound.past between.stems nothing here inside least available)

/-- The second byte of the first file has been asked for once. -/
theorem twoShards_asked : ∃ issued interleaved,
    Emits (Step (reader (reliable twoFiles) inPairs) fun _ => .proceed) asks
      ⟨start 2 (construct twoShards [0, 1] inPairs), none⟩ issued interleaved ∧
    interleaved.state.consumer = .returned .ok ∧ issued.countP (Ask.Covers 0 1) = 1 := by
  have shuffles : ∀ (seed : Nat) (order : List Nat), order.Perm order := fun _ order => .refl order
  obtain ⟨interleaved, run, done⟩ :=
    (@inevitably_done (reliable twoFiles) inPairs (fun _ order => order) twoShards _ shuffles rfl
      twoShards_fit.1 twoShards_fit.2 rfl fun _ => .proceed).exists_reaches
  obtain ⟨result, returned⟩ := done.returned
  have looped := done.looped id result returned
  rw [handOut_of_proceed fun _ _ => rfl] at looped
  obtain ⟨-, rfl⟩ := Prod.mk.inj looped
  obtain ⟨issued, emits⟩ := run.emits asks
  have placed : (⟨"a", 0, 3⟩ : Shard) = (construct twoShards [0, 1] inPairs).shardAt 0 := rfl
  have once := windows_asked_once rfl shuffles rfl twoShards_fit.2 emits placed
    (show 1 < 3 by decide)
  exact ⟨issued, interleaved, emits, returned,
    once.2 returned (fun _ => by simp) (by decide) (by decide) (by decide)⟩

end Interleaved

end ForEachBatch

end Dsio
