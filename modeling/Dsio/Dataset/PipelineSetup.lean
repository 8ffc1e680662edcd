import Mathlib.Algebra.Order.Ring.Nat
import Dsio.Dataset.PipelineProgress

/-!
# Setting the pipeline up

Before the worker starts, `for_each_batch` makes the two channels and sends the batches to
`free` one at a time. `prefetch + 1` is a sum of `std::size_t`. Where it does not wrap, the
loop comes to `start`; where it does, `free` has no room and the first send never returns.
-/

namespace Dsio.Pipeline

open Transition

variable {Stream : Type}

/-- The loop that fills `free`: its `i`, and the channel. -/
structure Setup where
  index : Nat
  free : Channel Batch

/-- `free` as it is constructed. -/
def Setup.first (prefetch : Nat) : Setup := ⟨0, .empty ((prefetch + 1) % 2 ^ 64)⟩

/-- Both threads at their first statements, with these batches free. -/
def launched (prefetch : Nat) (stream : Stream) (free : Channel Batch) : State Stream :=
  { start prefetch stream with free }

/-- A call of `for_each_batch` behind its guards. -/
inductive Phase (Stream : Type) where
  | settingUp (setup : Setup)
  | running (state : State Stream)

/-- A round of the loop, the start of the worker, or a step of one of the two threads. -/
inductive Phase.Step (read : Stream → ReadResult → Stream → Prop)
    (callback : Nat → CallbackResult) (prefetch : Nat) (stream : Stream) :
    Phase Stream → Phase Stream → Prop where
  | send {setup free} (more : setup.index ≤ prefetch)
      (sent : setup.free.send { buffer := setup.index } = .done free) :
      Step read callback prefetch stream (.settingUp setup)
        (.settingUp ⟨(setup.index + 1) % 2 ^ 64, free⟩)
  | launch {setup} (all : prefetch < setup.index) :
      Step read callback prefetch stream (.settingUp setup)
        (.running (launched prefetch stream setup.free))
  | run {before after} (moves : Pipeline.Step read callback before after) :
      Step read callback prefetch stream (.running before) (.running after)

/-- The batches before `i` are in `free`, which has room for the others. -/
structure Setup.Filled (prefetch : Nat) (setup : Setup) : Prop where
  within : setup.index ≤ prefetch + 1
  capacity : setup.free.capacity = prefetch + 1
  items : setup.free.items = (List.range setup.index).map fun buffer => { buffer }
  isOpen : setup.free.closed = false

variable {prefetch : Nat} {stream : Stream} {read : Stream → ReadResult → Stream → Prop}
variable {callback : Nat → CallbackResult} {setup : Setup}

/-- The channel begins empty, with room for all batches. -/
theorem Setup.filled_first (fits : prefetch + 1 < 2 ^ 64) :
    (Setup.first prefetch).Filled prefetch where
  within := Nat.zero_le _
  capacity := Nat.mod_eq_of_lt fits
  items := rfl
  isOpen := rfl

/-- A send puts one more batch in place. -/
theorem Setup.Filled.send (filled : setup.Filled prefetch) (fits : prefetch + 1 < 2 ^ 64)
    {free : Channel Batch} (more : setup.index ≤ prefetch)
    (done : setup.free.send { buffer := setup.index } = .done free) :
    Setup.Filled prefetch ⟨(setup.index + 1) % 2 ^ 64, free⟩ := by
  have sent := Channel.sent_of_send done
  have next : (setup.index + 1) % 2 ^ 64 = setup.index + 1 := Nat.mod_eq_of_lt (by omega)
  rw [next]
  exact {
    within := Nat.succ_le_succ more
    capacity := sent.capacity.trans filled.capacity
    items := by rw [sent.items, filled.items, List.range_succ, List.map_append, List.map_singleton]
    isOpen := sent.closed }

/-- Until all batches are there, the next send does not block. -/
theorem Setup.Filled.sends (filled : setup.Filled prefetch) (more : setup.index ≤ prefetch) :
    ∃ free, setup.free.send { buffer := setup.index } = .done free := by
  cases sent : setup.free.send { buffer := setup.index } with
  | done free => exact ⟨free, rfl⟩
  | thrown =>
      have closed := Channel.send_eq_thrown_iff.mp sent
      rw [filled.isOpen] at closed
      cases closed
  | blocked =>
      have full := (Channel.send_eq_blocked_iff.mp sent).2
      rw [filled.items, filled.capacity, List.length_map, List.length_range] at full
      omega

/-- The loop leaves the channel that the two threads start with. -/
theorem Setup.Filled.launched_eq (filled : setup.Filled prefetch) (all : prefetch < setup.index)
    (stream : Stream) : launched prefetch stream setup.free = start prefetch stream := by
  have last : setup.index = prefetch + 1 := Nat.le_antisymm filled.within all
  have same : setup.free = (start prefetch stream).free := by
    obtain ⟨-, capacity, items, isOpen⟩ := filled
    obtain ⟨index, ⟨room, held, closed, bounded⟩⟩ := setup
    simp only at last capacity items isOpen
    subst last capacity items isOpen
    rfl
  rw [launched, same]

/-- What a call has come to: batches in place, or a run of the two threads. -/
inductive Phase.Begun (read : Stream → ReadResult → Stream → Prop)
    (callback : Nat → CallbackResult) (prefetch : Nat) (stream : Stream) :
    Phase Stream → Prop where
  | settingUp {setup : Setup} (filled : setup.Filled prefetch) :
      Begun read callback prefetch stream (.settingUp setup)
  | running {state : State Stream} (run : Reaches (Pipeline.Step read callback) (start prefetch stream) state) :
      Begun read callback prefetch stream (.running state)

/-- Every step of the set-up fills the channel; the threads start once it is full. -/
theorem Phase.Begun.step (fits : prefetch + 1 < 2 ^ 64) {before after : Phase Stream}
    (begun : before.Begun read callback prefetch stream)
    (transition : Phase.Step read callback prefetch stream before after) :
    after.Begun read callback prefetch stream := by
  cases transition with
  | send more sent =>
      cases begun with
      | settingUp filled => exact .settingUp (filled.send fits more sent)
  | launch all =>
      cases begun with
      | settingUp filled => exact filled.launched_eq all stream ▸ .running .refl
  | run moves =>
      cases begun with
      | running run => exact .running (run.tail moves)

/-- The set-up or the threads are on their way in every phase. -/
theorem Phase.Begun.of_reaches (fits : prefetch + 1 < 2 ^ 64) {phase : Phase Stream}
    (reached : Reaches (Phase.Step read callback prefetch stream)
      (.settingUp (.first prefetch)) phase) : phase.Begun read callback prefetch stream :=
  reached.preserves (.step fits) (.settingUp (Setup.filled_first fits))

/-- The loop gets to its end. -/
theorem Setup.reaches_filled (fits : prefetch + 1 < 2 ^ 64) {count : Nat}
    (within : count ≤ prefetch + 1) : ∃ setup : Setup, setup.index = count ∧
      setup.Filled prefetch ∧ Reaches (Phase.Step read callback prefetch stream)
        (.settingUp (.first prefetch)) (.settingUp setup) := by
  induction count with
  | zero => exact ⟨_, rfl, Setup.filled_first fits, .refl⟩
  | succ count ih =>
      obtain ⟨setup, rfl, filled, run⟩ := ih (Nat.le_of_succ_le within)
      have more : setup.index ≤ prefetch := Nat.le_of_succ_le_succ within
      obtain ⟨free, sent⟩ := filled.sends more
      refine ⟨_, ?_, filled.send fits more sent, run.tail (.send more sent)⟩
      exact Nat.mod_eq_of_lt (by omega)

/-- A call gets to wherever its two threads do. -/
theorem Phase.reaches_running (fits : prefetch + 1 < 2 ^ 64) {state : State Stream}
    (run : Reaches (Pipeline.Step read callback) (start prefetch stream) state) :
    Reaches (Phase.Step read callback prefetch stream) (.settingUp (.first prefetch))
      (.running state) := by
  obtain ⟨setup, last, filled, loops⟩ := Setup.reaches_filled fits (Nat.le_refl _)
  have all : prefetch < setup.index := last ▸ Nat.lt_succ_self _
  have launches : Phase.Step read callback prefetch stream (.settingUp setup)
      (.running (start prefetch stream)) := filled.launched_eq all stream ▸ .launch all
  exact (loops.tail launches).trans (run.lift Phase.running fun _ _ moves => .run moves)

/-- Nobody is stuck: the loop goes on, a consumer that is blocked waits for a worker that can
move, a blocked worker waits for a consumer that can, and a call that has not returned goes
on. -/
structure Phase.Live (read : Stream → ReadResult → Stream → Prop)
    (callback : Nat → CallbackResult) (prefetch : Nat) (stream : Stream)
    (phase : Phase Stream) : Prop where
  setup : ∀ setup, phase = .settingUp setup →
    ∃ after, Phase.Step read callback prefetch stream phase after
  consumer : ∀ state, phase = .running state → (∀ result, state.consumer ≠ .returned result) →
    consumerStep callback state = none → ∃ after, WorkerStep read state after
  worker : ∀ state, phase = .running state →
    (∀ held ending, state.worker ≠ .finished held ending) →
    (¬ ∃ after, WorkerStep read state after) → ∃ after, consumerStep callback state = some after
  either : ∀ state, phase = .running state → (∀ result, state.consumer ≠ .returned result) →
    ∃ after, Phase.Step read callback prefetch stream phase after

/-- No schedule deadlocks, from the first statement of the set-up on. -/
theorem never_deadlocks (positive : 0 < prefetch) (fits : prefetch + 1 < 2 ^ 64)
    (reads : Nat → Outcome (List Byte)) (callback : Nat → CallbackResult) {phase : Phase Nat}
    (reached : Reaches (Phase.Step (outcomes reads) callback prefetch 0)
      (.settingUp (.first prefetch)) phase) :
    phase.Live (outcomes reads) callback prefetch 0 := by
  have total := results_total fun index => .outcome (reads index)
  cases Phase.Begun.of_reaches fits reached with
  | @settingUp setup filled =>
      have goes : ∃ after, Phase.Step (outcomes reads) callback prefetch 0
          (.settingUp setup) after := by
        by_cases more : setup.index ≤ prefetch
        · obtain ⟨free, sent⟩ := filled.sends more
          exact ⟨_, .send more sent⟩
        · exact ⟨_, .launch (Nat.lt_of_not_le more)⟩
      refine ⟨fun _ _ => goes, ?_, ?_, ?_⟩ <;> rintro _ ⟨⟩
  | @running state run =>
      have follows : Follows prefetch (fun index => .outcome (reads index)) state :=
        Follows.of_reaches run
      refine ⟨?_, ?_, ?_, ?_⟩
      · rintro _ ⟨⟩
      · rintro _ ⟨⟩ unreturned blocked
        exact follows.inv.worker_moves positive total unreturned blocked follows.not_hung
      · rintro _ ⟨⟩ unfinished blocked
        exact follows.inv.consumer_moves positive total unfinished blocked
      · rintro _ ⟨⟩ unreturned
        have goes : ∃ after, Pipeline.Step (outcomes reads) callback state after :=
          follows.inv.progress positive total unreturned follows.not_hung
        obtain ⟨after, moves⟩ := goes
        exact ⟨_, .run moves⟩

/-! ## Termination -/

/-- The threads have come to a state of this kind. -/
def Phase.Comes (goal : State Stream → Prop) : Phase Stream → Prop
  | .settingUp _ => False
  | .running state => goal state

/-- What the threads come to, the call comes to. -/
theorem Phase.inevitable_running {goal : State Stream → Prop} {state : State Stream}
    (threads : Inevitable (Pipeline.Step read callback) goal state) :
    Inevitable (Phase.Step read callback prefetch stream) (Phase.Comes goal)
      (.running state) := by
  induction threads with
  | now arrived => exact .now arrived
  | later progress _ ih =>
      obtain ⟨next, moves⟩ := progress
      refine .later ⟨_, .run moves⟩ fun after transition => ?_
      cases transition with
      | run moves => exact ih _ moves

/-- By induction on the batches that are still to be sent. -/
theorem Setup.Filled.inevitable {goal : State Stream → Prop} (fits : prefetch + 1 < 2 ^ 64)
    (threads : Inevitable (Pipeline.Step read callback) goal (start prefetch stream))
    {left : Nat} (filled : setup.Filled prefetch) (remain : prefetch + 1 - setup.index = left) :
    Inevitable (Phase.Step read callback prefetch stream) (Phase.Comes goal)
      (.settingUp setup) := by
  induction left generalizing setup with
  | zero =>
      have all : prefetch < setup.index := Nat.lt_of_succ_le (Nat.sub_eq_zero_iff_le.mp remain)
      refine .later ⟨_, .launch all⟩ fun after transition => ?_
      cases transition with
      | send more => exact absurd all (Nat.not_lt.mpr more)
      | launch =>
          rw [filled.launched_eq all]
          exact Phase.inevitable_running threads
  | succ left ih =>
      have more : setup.index ≤ prefetch := by omega
      obtain ⟨free, sent⟩ := filled.sends more
      refine .later ⟨_, .send more sent⟩ fun after transition => ?_
      cases transition with
      | send _ sent =>
          refine ih (filled.send fits more sent) ?_
          have next : (setup.index + 1) % 2 ^ 64 = setup.index + 1 := Nat.mod_eq_of_lt (by omega)
          rw [next]
          exact Nat.sub_add_eq _ _ 1 ▸ congrArg (· - 1) remain
      | launch all => exact absurd all (Nat.not_lt.mpr more)

/-- Under every schedule a call over an ending sequence gets through its set-up, and returns or
hangs. -/
theorem Phase.inevitable_end {last : Nat} {sequence : Nat → ReadResult}
    (callback : Nat → CallbackResult) (positive : 0 < prefetch) (fits : prefetch + 1 < 2 ^ 64)
    (ends : (sequence last).batch? = none) :
    Inevitable (Phase.Step (results sequence) callback prefetch 0)
      (Phase.Comes fun state => (∃ result, state.consumer = .returned result) ∨ Hung state)
      (.settingUp (.first prefetch)) :=
  (Setup.filled_first fits).inevitable fits (Pipeline.inevitable_end callback positive ends) rfl

/-! ## Either side blocked -/

/-- Two batches and then an error. -/
def twoReads (index : Nat) : Outcome (List Byte) :=
  if index < 2 then .ok [7] else .error ⟨"read", none⟩

/-- The second call throws. -/
def secondThrows (call : Nat) : CallbackResult := if call = 1 then .throws else .proceed

abbrev TwoStep : State Nat → State Nat → Prop := Pipeline.Step (outcomes twoReads) secondThrows

/-- One batch waits in `ready`, which has room for one, and the worker has the other. -/
theorem ready_full : ∃ state, Reaches TwoStep (start 1 0) state ∧
    state.worker = .sendReady ⟨1, [7]⟩ ∧ state.consumer = .recvReady ∧ workerStep state = none := by
  have filling : Reaches TwoStep (start 1 0) _ := .single (.worker rfl)
  have filled := (filling.tail (.read rfl ⟨rfl, rfl⟩)).tail (.worker rfl)
  have again := (filled.tail (.worker rfl)).tail (.read rfl ⟨rfl, rfl⟩)
  exact ⟨_, again, rfl, rfl, rfl⟩

/-- The second call has thrown, and the consumer waits for a worker whose read failed. -/
theorem thrown_joining : ∃ state, Reaches TwoStep (start 1 0) state ∧
    state.worker = .settingError ⟨0, [7]⟩ ⟨"read", none⟩ ∧ state.consumer = .joining .rethrown ∧
    consumerStep secondThrows state = none := by
  have filling : Reaches TwoStep (start 1 0) _ := .single (.worker rfl)
  have filled := (filling.tail (.read rfl ⟨rfl, rfl⟩)).tail (.worker rfl)
  have again := (filled.tail (.worker rfl)).tail (.read rfl ⟨rfl, rfl⟩)
  have called := (again.tail (.consumer rfl)).tail (.consumer rfl)
  have given := (called.tail (.consumer rfl)).tail (.worker rfl)
  have failed := (given.tail (.worker rfl)).tail (.read rfl ⟨rfl, rfl⟩)
  have thrown := (failed.tail (.consumer rfl)).tail (.consumer rfl)
  have closed := (thrown.tail (.consumer rfl)).tail (.consumer rfl)
  exact ⟨_, closed, rfl, rfl, rfl⟩

/-- The worker is blocked and the consumer goes on; the callback has thrown, a read has failed,
the consumer is blocked and the worker goes on. -/
theorem never_deadlocks_throwing :
    (∃ state : State Nat, state.worker = .sendReady ⟨1, [7]⟩ ∧ workerStep state = none ∧
      ∃ after, consumerStep secondThrows state = some after) ∧
    ∃ state : State Nat, state.worker = .settingError ⟨0, [7]⟩ ⟨"read", none⟩ ∧
      state.consumer = .joining .rethrown ∧ consumerStep secondThrows state = none ∧
      ∃ after, WorkerStep (outcomes twoReads) state after := by
  constructor
  · obtain ⟨state, run, full, -, blocked⟩ := ready_full
    have live := never_deadlocks (by decide) (by decide) twoReads secondThrows
      (Phase.reaches_running (by decide) run)
    refine ⟨state, full, blocked, live.worker state rfl (by simp [full]) ?_⟩
    rintro ⟨after, step⟩
    cases step with
    | moves moves => simp [blocked] at moves
    | read reading => simp [full] at reading
  · obtain ⟨state, run, failed, joining, blocked⟩ := thrown_joining
    have live := never_deadlocks (by decide) (by decide) twoReads secondThrows
      (Phase.reaches_running (by decide) run)
    exact ⟨state, failed, joining, blocked, live.consumer state rfl (by simp [joining]) blocked⟩

/-- The largest `prefetch` wraps: the channel has no room and the first send blocks. -/
theorem wrapped_setup_blocks :
    ¬ ∀ prefetch, 0 < prefetch → prefetch < 2 ^ 64 → ∀ reads callback phase,
      Reaches (Phase.Step (outcomes reads) callback prefetch 0) (.settingUp (.first prefetch))
        phase → phase.Live (outcomes reads) callback prefetch 0 := by
  intro always
  have live := always (2 ^ 64 - 1) (by decide) (by decide) (fun _ => .ok []) (fun _ => .proceed) _
    .refl
  obtain ⟨after, step⟩ := live.setup _ rfl
  cases step with
  | send more sent => cases sent
  | launch all => exact absurd all (Nat.not_lt_zero _)

end Dsio.Pipeline
