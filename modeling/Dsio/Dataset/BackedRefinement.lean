import Dsio.BackendLaws
import Dsio.Dataset.Backed
import Dsio.Dataset.Lifetime
import Dsio.Library.Simulation

/-!
# The running backend is the one the stream sees

A stream over a running backend does what the stream of `Dsio.Dataset.Reading` does. The
requests in flight there are here those waiting to be read and those whose completions have
not been reported; the data of the latter is in their buffers already, which nobody looks
at before.
-/

namespace Dsio

open Transition Window

namespace ShardStream

/-! ## Other buffers, another backend -/

/-- The same stream over other memory. -/
def onto (buffers : List AlignedBuffer) (backend : Option Dsio.Backend) (stream : ShardStream) :
    ShardStream :=
  { stream with buffers, backend }

variable {stream : ShardStream} {buffers : List AlignedBuffer} {backend : Option Dsio.Backend}

/-- A slot is taken alike over both backends. -/
theorem takeFree_onto : (stream.onto buffers backend).takeFree =
    stream.takeFree.map fun taken => (taken.1, taken.2.onto buffers backend) := by
  simp only [takeFree, onto, Option.map_map]
  rfl

/-- Buffers at the same addresses give the same spans. -/
theorem bufferSpan_onto (same : buffers.map (·.address) = stream.buffers.map (·.address))
    (slot length : Nat) :
    (stream.onto buffers backend).bufferSpan slot length = stream.bufferSpan slot length := by
  have address : (buffers[slot]?).map (·.address) = (stream.buffers[slot]?).map (·.address) := by
    rw [← List.getElem?_map, ← List.getElem?_map, same]
  simp only [bufferSpan, bufferAt, onto]
  cases here : buffers[slot]? <;> cases there : stream.buffers[slot]? <;> simp_all

/-- A request is queued alike over both backends. -/
theorem enqueue_onto (same : buffers.map (·.address) = stream.buffers.map (·.address))
    (slot : Nat) : (stream.onto buffers backend).enqueue slot =
      ((stream.enqueue slot).1, (stream.enqueue slot).2.onto buffers backend) := by
  have span := @bufferSpan_onto _ _ backend same slot
  simp only [enqueue, onto, requestLength] at span ⊢
  rw [span]
  rfl

/-- A fill goes by the addresses of the buffers only. -/
theorem fillLoop_onto (same : buffers.map (·.address) = stream.buffers.map (·.address))
    (rounds : Nat) (requests : List ReadRequest) :
    fillLoop rounds (stream.onto buffers backend) requests =
      ((fillLoop rounds stream requests).1.onto buffers backend,
        (fillLoop rounds stream requests).2) := by
  induction rounds generalizing stream requests with
  | zero => rfl
  | succ rounds ih =>
      simp only [fillLoop]
      by_cases more : stream.pending.length + requests.length < stream.readDepth ∧
          stream.nextOffset < stream.windowEnd
      · have moreOnto : (stream.onto buffers backend).pending.length + requests.length <
            (stream.onto buffers backend).readDepth ∧
            (stream.onto buffers backend).nextOffset < (stream.onto buffers backend).windowEnd :=
          more
        rw [if_pos more, if_pos moreOnto, takeFree_onto]
        cases taken : stream.takeFree with
        | none => rfl
        | some taken' =>
            obtain ⟨slot, next⟩ := taken'
            obtain ⟨-, rfl⟩ := takeFree_eq_some taken
            let next : ShardStream := { stream with free := stream.free.set slot false }
            have enqueued : (next.onto buffers backend).enqueue slot =
                ((next.enqueue slot).1, (next.enqueue slot).2.onto buffers backend) :=
              @enqueue_onto next buffers backend same slot
            simp only [Option.map_some]
            rw [enqueued]
            exact @ih (next.enqueue slot).2 same _
      · rw [if_neg more]
        exact if_neg more

end ShardStream

/-! ## Data that has landed -/

/-- Where a buffer is, and how large. -/
def AlignedBuffer.extent (buffer : AlignedBuffer) : Nat × Nat := (buffer.address, buffer.size)

/-- The buffers at this address begin with the data, as far as they go. -/
def Landed (buffers : List AlignedBuffer) (address : Nat) (data : List Byte) : Prop :=
  ∀ buffer ∈ buffers, buffer.address = address →
    buffer.bytes.take data.length = data.take buffer.size

/-- What was written is at the front of the buffer, as far as it goes. -/
theorem AlignedBuffer.take_write_length (buffer : AlignedBuffer) (data : List Byte) :
    (buffer.write data).bytes.take data.length = data.take buffer.size := by
  rw [write, List.take_take, Nat.min_comm, ← List.take_take, List.take_left]

/-- A read lands in the buffer at its address. -/
theorem landed_receive (buffers : List AlignedBuffer) (address : Nat) (data : List Byte) :
    Landed (buffers.map (AlignedBuffer.receive address data)) address data := by
  intro buffer member same
  obtain ⟨old, -, rfl⟩ := List.mem_map.mp member
  rw [AlignedBuffer.receive_address] at same
  rw [AlignedBuffer.receive_size, AlignedBuffer.receive, if_pos same]
  exact old.take_write_length data

/-- A read into another buffer leaves what has landed. -/
theorem Landed.receive {buffers : List AlignedBuffer} {address other : Nat} {data : List Byte}
    (landed : Landed buffers address data) (apart : other ≠ address) (more : List Byte) :
    Landed (buffers.map (AlignedBuffer.receive other more)) address data := by
  intro buffer member same
  obtain ⟨old, live, rfl⟩ := List.mem_map.mp member
  rw [AlignedBuffer.receive_address] at same
  have elsewhere : old.address ≠ other := fun equal => apart (equal.symm.trans same)
  rw [AlignedBuffer.receive, if_neg elsewhere]
  exact landed old live same

/-- A read changes no buffer's address or size. -/
theorem map_extent_receive (buffers : List AlignedBuffer) (address : Nat) (data : List Byte) :
    (buffers.map (AlignedBuffer.receive address data)).map AlignedBuffer.extent =
      buffers.map AlignedBuffer.extent := by
  rw [List.map_map]
  refine List.map_congr_left fun buffer _ => ?_
  simp [AlignedBuffer.extent]

/-- What is read into one buffer does not show in another. -/
theorem bufferAt_receive {stream : ShardStream} {slot address : Nat}
    (apart : address ≠ (stream.bufferAt slot).address) (data : List Byte) :
    ShardStream.bufferAt { stream with
      buffers := stream.buffers.map (AlignedBuffer.receive address data) } slot =
      stream.bufferAt slot := by
  simp only [ShardStream.bufferAt, List.getElem?_map] at apart ⊢
  cases here : stream.buffers[slot]? with
  | none => rfl
  | some buffer =>
      rw [here] at apart
      exact if_neg fun same => apart same.symm

/-- Bytes that have landed are those the stream gets when the read is reported. -/
theorem Landed.bufferAt {concrete stream : ShardStream} {slot address : Nat} {data : List Byte}
    (landed : Landed concrete.buffers address data)
    (extents : concrete.buffers.map AlignedBuffer.extent =
      stream.buffers.map AlignedBuffer.extent)
    (bound : slot < stream.buffers.length) (own : (stream.bufferAt slot).address = address) :
    (concrete.bufferAt slot).bytes.take data.length = (ShardStream.bufferAt { stream with
      buffers := stream.buffers.map (AlignedBuffer.receive address data) } slot).bytes.take
        data.length := by
  have lengths := congrArg List.length extents
  rw [List.length_map, List.length_map] at lengths
  have live : slot < concrete.buffers.length := lengths ▸ bound
  have extent : (concrete.buffers[slot]).extent = (stream.buffers[slot]).extent := by
    have same := List.getElem_of_eq extents (i := slot) (by simpa using live)
    simpa using same
  obtain ⟨address', size⟩ := Prod.mk.inj extent
  have here : stream.buffers[slot].address = address := by
    simpa [ShardStream.bufferAt, bound] using own
  have there := landed concrete.buffers[slot] (List.getElem_mem live) (address'.trans here)
  have written := (stream.buffers[slot]).take_write_length data
  rw [← size, ← there] at written
  simpa [ShardStream.bufferAt, live, bound, AlignedBuffer.receive, here] using written.symm

namespace Backed

variable {implementation : Implementation} {environment : Environment}
variable {opens : Int → BackendOptions → Outcome implementation.Backend → Prop}
variable {suits : ReadRequest → Prop}

/-- The requests in flight are those waiting to be read and those of the completions not yet
reported, whose data is in their buffers. -/
structure Books (kernel : Kernel) (buffers : List AlignedBuffer)
    (inFlight waiting : List ReadRequest) (finished : List Completion)
    (done : List (ReadRequest × Except Nat (List Byte))) : Prop where
  inFlight : inFlight.Perm (waiting ++ done.map (·.1))
  finished : finished.Perm (done.map fun read => completionOf read.1.token read.2)
  read : ∀ read ∈ done, kernel read.1.offset read.1.dst.size read.2 ∧
    Landed buffers read.1.dst.address (dataOf read.2)

/-- The running backend and the one the stream sees. -/
inductive Represents (contract : implementation.Contract opens environment.fails suits)
    (kernel : Kernel) (buffers : List AlignedBuffer) (taken : List Completion) :
    Option implementation.Backend → Option Dsio.Backend → Prop where
  | closed : Represents contract kernel buffers taken none none
  | opened {backend ideal done} (holds : contract.Holds backend)
      (depth : contract.depth backend = ideal.options.queueDepth)
      (books : Books kernel buffers ideal.inFlight (contract.waiting backend)
        (taken ++ contract.finished backend) done) :
      Represents contract kernel buffers taken (some backend) (some ideal)

/-- The stream over the running backend is at the place of the stream it refines; a reap in
progress has taken `taken`. -/
structure Refines (contract : implementation.Contract opens environment.fails suits)
    (taken : List Completion) (backed : Backed implementation) (stream : ShardStream) : Prop where
  frame : backed.stream = stream.onto backed.stream.buffers backed.stream.backend
  buffers : backed.stream.buffers.map AlignedBuffer.extent =
    stream.buffers.map AlignedBuffer.extent
  /-- The entries to copy from have the same bytes. -/
  copied : ∀ entry ∈ stream.pending, entry.done = true →
    (backed.stream.bufferAt entry.slot).bytes.take entry.bytes =
      (stream.bufferAt entry.slot).bytes.take entry.bytes
  backends : Represents contract (environment.kernel (environment.disk.content stream.file.path))
    backed.stream.buffers taken backed.backend stream.backend

/-- The kernel of an environment answers with no errno 0. -/
theorem nonzero_kernel (environment : Environment) (content : List Byte) :
    (environment.kernel content).Nonzero := fun _ _ _ answers => answers.2

variable {contract : implementation.Contract opens environment.fails suits}
variable {taken : List Completion} {backed after : Backed implementation} {stream : ShardStream}

/-- Both streams have their buffers at the same addresses. -/
theorem Refines.addresses (refines : Refines contract taken backed stream) :
    backed.stream.buffers.map (·.address) = stream.buffers.map (·.address) := by
  have extents := congrArg (List.map Prod.fst) refines.buffers
  simpa [List.map_map, Function.comp_def, AlignedBuffer.extent] using extents

/-- Both streams have the buffer of a slot at the same address. -/
theorem Refines.bufferAt_address (refines : Refines contract taken backed stream) (slot : Nat) :
    (backed.stream.bufferAt slot).address = (stream.bufferAt slot).address := by
  have address : (backed.stream.buffers[slot]?).map (·.address) =
      (stream.buffers[slot]?).map (·.address) := by
    rw [← List.getElem?_map, ← List.getElem?_map, refines.addresses]
  simp only [ShardStream.bufferAt]
  cases here : backed.stream.buffers[slot]? <;> cases there : stream.buffers[slot]? <;> simp_all

/-! ## Reads that are done -/

/-- A read that is done moves its request over to the finished ones. -/
theorem Books.served {kernel : Kernel} {buffers : List AlignedBuffer}
    {inFlight waiting left : List ReadRequest} {finished more : List Completion}
    {done : List (ReadRequest × Except Nat (List Byte))} {dst : Span} {data : List Byte}
    (books : Books kernel buffers inFlight waiting (taken ++ finished) done)
    (exclusive : (inFlight.map fun request => request.dst.address).Nodup)
    (served : Served kernel waiting left finished more dst data) :
    dst.address ∈ inFlight.map (fun request => request.dst.address) ∧
      ∃ done, Books kernel (buffers.map (AlignedBuffer.receive dst.address data)) inFlight left
        (taken ++ more) done := by
  obtain ⟨request, answer, rfl, rfl, answers, waits, reports⟩ := served.read
  have split : inFlight.Perm (request :: (left ++ done.map (·.1))) :=
    books.inFlight.trans (waits.append_right _)
  have apart := (split.map fun request => request.dst.address).nodup_iff.mp exclusive
  rw [List.map_cons, List.nodup_cons] at apart
  refine ⟨List.mem_map.mpr ⟨request, split.mem_iff.mpr List.mem_cons_self, rfl⟩,
    (request, answer) :: done, split.trans List.perm_middle.symm, ?_, ?_⟩
  · exact (reports.append_left taken).trans (List.perm_middle.trans (books.finished.cons _))
  · intro read member
    rcases List.mem_cons.mp member with rfl | old
    · exact ⟨answers, landed_receive buffers _ _⟩
    · obtain ⟨answered, landed⟩ := books.read read old
      refine ⟨answered, landed.receive (fun same => apart.1 ?_) _⟩
      rw [same]
      exact List.mem_map.mpr
        ⟨read.1, List.mem_append_right _ (List.mem_map.mpr ⟨read, old, rfl⟩), rfl⟩

/-- What the threads or the kernel do does not show until it is reported. -/
theorem Refines.serve (refines : Refines contract taken backed stream)
    (safe : ShardStream.Safe stream) (serves : Serves environment backed after) :
    Refines contract taken after stream := by
  cases serves with
  | @serve concrete backend dst data afterBackend serves =>
      have address := refines.bufferAt_address
      obtain ⟨frame, buffers, copied, backends⟩ := refines
      dsimp only at frame buffers copied backends
      generalize ideal : stream.backend = idealBackend at backends
      cases backends with
      | @opened _ idealBackend done holds depth books =>
          have path : concrete.file.path = stream.file.path := by rw [frame]; rfl
          rw [path] at serves
          obtain ⟨holdsAfter, sameDepth, -, served⟩ :=
            contract.served (nonzero_kernel environment _) holds serves
          have inFlight : stream.inFlight = idealBackend.inFlight := by
            simp only [ShardStream.inFlight, ideal]
          obtain ⟨member, more, booksAfter⟩ := books.served (inFlight ▸ safe.exclusive) served
          refine ⟨?_, (map_extent_receive ..).trans buffers, ?_, ?_⟩
          · dsimp only
            rw [frame]
            rfl
          · intro entry pending done
            obtain ⟨request, waiting, same⟩ := List.mem_map.mp member
            have elsewhere := safe.uncopied entry pending done request (inFlight ▸ waiting)
            have apart : dst.address ≠ (concrete.bufferAt entry.slot).address := by
              rw [← same, address entry.slot]
              exact elsewhere
            dsimp only
            rw [bufferAt_receive apart data]
            exact copied entry pending done
          · rw [ideal]
            exact .opened holdsAfter (sameDepth.trans depth) booksAfter

/-! ## What the stream does on its own -/

/-- Entries may go, and whatever is not memory may change. -/
theorem Refines.onto {next : ShardStream} (refines : Refines contract taken backed stream)
    (buffers : next.buffers = stream.buffers) (backend : next.backend = stream.backend)
    (file : next.file = stream.file)
    (entries : ∀ entry ∈ next.pending, entry.done = true → entry ∈ stream.pending) :
    Refines contract taken
      ⟨next.onto backed.stream.buffers backed.stream.backend, backed.backend⟩ next where
  frame := rfl
  buffers := buffers ▸ refines.buffers
  copied := by
    intro entry pending done
    have copied := refines.copied entry (entries entry pending done) done
    simp only [ShardStream.bufferAt, ShardStream.onto, buffers] at copied ⊢
    exact copied
  backends := by
    rw [backend, file]
    exact refines.backends

/-- Both streams close a shard alike. -/
theorem Refines.closeShard (backed : Backed implementation)
    (refines : Refines contract taken backed stream) :
    Refines contract [] backed.closeShard stream.closeShard where
  frame := by
    have frame := refines.frame
    simp only [Backed.closeShard, ShardStream.closeShard_eq]
    rw [frame]
    rfl
  buffers := refines.buffers
  copied := by simp [ShardStream.closeShard_eq]
  backends := .closed

/-- The carry is handed out alike over both backends. -/
theorem flushCarry_onto (size : Nat) (stream : ShardStream) (buffers : List AlignedBuffer)
    (backend : Option Dsio.Backend) :
    (stream.onto buffers backend).flushCarry size =
      ((stream.flushCarry size).1, (stream.flushCarry size).2.onto buffers backend) := by
  by_cases empty : stream.carrySize = 0
  · rw [ShardStream.flushCarry, ShardStream.flushCarry, if_pos empty]
    exact if_pos empty
  · rw [ShardStream.flushCarry, ShardStream.flushCarry, if_neg empty]
    exact if_neg empty

/-- A read of the one is begun where a read of the other is. -/
theorem Refines.flushCarry (refines : Refines contract [] backed stream) (size : Nat) :
    (backed.stream.flushCarry size).1 = (stream.flushCarry size).1 ∧
      Refines contract [] { backed with stream := (backed.stream.flushCarry size).2 }
        (stream.flushCarry size).2 := by
  have same := flushCarry_onto size stream backed.stream.buffers backed.stream.backend
  rw [← refines.frame] at same
  obtain ⟨carry, carrySize, frame⟩ := ShardStream.flushCarry_frame size stream
  rw [same]
  exact ⟨rfl, refines.onto (by rw [frame]) (by rw [frame]) (by rw [frame])
    fun entry member _ => by rwa [frame] at member⟩

/-- Copying needs no more of the source than its count. -/
theorem copyN_take (count : Nat) (source : List Byte) :
    copyN count (source.take count) = copyN count source := by
  induction count generalizing source with
  | zero => rfl
  | succ count ih =>
      cases source with
      | nil => rfl
      | cons byte rest => exact congrArg (byte :: ·) (ih rest)

/-- What is copied from within the bytes two buffers share. -/
theorem copyN_congr {first second : List Byte} {count : Nat}
    (same : first.take count = second.take count) {start length : Nat}
    (within : start + length ≤ count) :
    copyN length (first.drop start) = copyN length (second.drop start) := by
  have shared : first.take (start + length) = second.take (start + length) := by
    have fewer := congrArg (List.take (start + length)) same
    rwa [List.take_take, List.take_take, Nat.min_eq_left within] at fewer
  rw [← copyN_take, ← copyN_take length (second.drop start), List.take_drop, List.take_drop,
    shared]

/-- The front entry is copied from, and gives the same bytes. -/
theorem Refines.takeFront {entry : Pending} (refines : Refines contract [] backed stream)
    (front : stream.pending.head? = some entry) (done : entry.done = true) (room : Nat) :
    backed.stream.takeFront entry room = ((stream.takeFront entry room).1,
      (stream.takeFront entry room).2.1,
      (stream.takeFront entry room).2.2.onto backed.stream.buffers backed.stream.backend) := by
  have copied := refines.copied entry (List.mem_of_mem_head? front) done
  have first := @copyN_congr _ _ _ copied 0 (min room entry.bytes) (by omega)
  have rest := @copyN_congr _ _ _ copied (min room entry.bytes)
    (entry.bytes - min room entry.bytes) (by omega)
  simp only [List.drop_zero] at first
  have frame := refines.frame
  by_cases left : 0 < entry.bytes - min room entry.bytes
  · simp only [ShardStream.takeFront, first, rest, if_pos left]
    rw [frame]
    rfl
  · simp only [ShardStream.takeFront, first, if_neg left]
    rw [frame]
    rfl

/-! ## Submitting -/

/-- A fill queues the same in both. -/
theorem Refines.fill {filled : ShardStream} {requests : List ReadRequest}
    (refines : Refines contract taken backed stream)
    (fill : ShardStream.fillLoop backed.stream.readDepth backed.stream [] = (filled, requests)) :
    ∃ ideal entries, ShardStream.fillLoop stream.readDepth stream [] = (ideal, requests) ∧
      requests = entries.map stream.entryRequest ∧ ShardStream.Filled stream ideal entries ∧
      filled = ideal.onto backed.stream.buffers backed.stream.backend := by
  obtain ⟨ideal, entries, loop, spec, -⟩ :=
    ShardStream.fillLoop_spec stream.readDepth (ShardStream.filled_refl stream) (by simp)
  rw [List.map_nil] at loop
  have depth : backed.stream.readDepth = stream.readDepth := by rw [refines.frame]; rfl
  have same := @ShardStream.fillLoop_onto _ _ backed.stream.backend refines.addresses
    stream.readDepth []
  rw [← refines.frame, ← depth, fill, depth, loop] at same
  obtain ⟨rfl, rfl⟩ := Prod.mk.inj same
  exact ⟨ideal, entries, loop, rfl, spec, rfl⟩

/-- Both streams fill their pipelines alike. -/
theorem Refines.filled {filled ideal : ShardStream} {entries : List Pending}
    (refines : Refines contract taken backed stream)
    (spec : ShardStream.Filled stream ideal entries)
    (same : filled = ideal.onto backed.stream.buffers backed.stream.backend) :
    Refines contract taken { backed with stream := filled } ideal := by
  subst same
  refine refines.onto (by rw [spec.frame]) (by rw [spec.frame]) (by rw [spec.frame]) ?_
  intro entry member done
  rw [spec.frame] at member
  rcases List.mem_append.mp member with old | fresh
  · exact old
  · rw [spec.waiting entry fresh] at done
    cases done

/-- What a fill that is refused has queued is taken back. -/
theorem rolledBack {filled : ShardStream} {entries : List Pending}
    (spec : ShardStream.Filled stream filled entries) :
    { ShardStream.rollBack^[entries.length] filled with nextOffset := stream.nextOffset } =
      stream := by
  have undone := spec.rollBack []
  rwa [ShardStream.submit_nil, ShardStream.submit_nil] at undone

/-- Requests that reach the backend are in flight. -/
theorem Refines.submit {concrete : ShardStream} {backend after : implementation.Backend}
    {requests : List ReadRequest} (refines : Refines contract [] ⟨concrete, some backend⟩ stream)
    (holds : contract.Holds after) (depth : contract.depth after = contract.depth backend)
    (waiting : (contract.waiting after).Perm (contract.waiting backend ++ requests))
    (finished : contract.finished after = contract.finished backend) :
    Refines contract [] ⟨concrete, some after⟩ (stream.submit requests) where
  frame := refines.frame
  buffers := refines.buffers
  copied := refines.copied
  backends := by
    have backends := refines.backends
    dsimp only at backends ⊢
    generalize ideal : stream.backend = idealBackend at backends
    cases backends with
    | @opened _ idealBackend done _ sameDepth books =>
        obtain ⟨inFlight, reported, read⟩ := books
        simp only [ShardStream.submit, ideal, Option.map_some]
        refine .opened holds (depth.trans sameDepth) ⟨?_, finished ▸ reported, read⟩
        refine (inFlight.append_right requests).trans ?_
        rw [List.append_assoc]
        refine (List.perm_append_comm.append_left _).trans ?_
        rw [← List.append_assoc]
        exact waiting.symm.append_right _

/-! ## Reaping -/

/-- What the kernel answers, a completion of the account may report. -/
theorem reports_of_kernel {content : List Byte} {request : ReadRequest}
    {answer : Except Nat (List Byte)}
    (answers : environment.kernel content request.offset request.dst.size answer) :
    ShardStream.Reports environment content request (completionOf request.token answer)
      (dataOf answer) := by
  cases answer with
  | ok data => exact ⟨rfl, answers.1, .inl ⟨rfl, answers.2⟩⟩
  | error errno => exact ⟨rfl, (window_zero _ _).symm, .inr ⟨answers.2, rfl, answers.1⟩⟩

/-- A completion is that of a request in flight, whose data has landed. -/
theorem Books.reported {kernel : Kernel} {buffers : List AlignedBuffer}
    {inFlight waiting : List ReadRequest} {completion : Completion} {finished : List Completion}
    {done : List (ReadRequest × Except Nat (List Byte))}
    (books : Books kernel buffers inFlight waiting (completion :: finished) done) :
    ∃ request answer index, inFlight[index]? = some request ∧
      completion = completionOf request.token answer ∧
      kernel request.offset request.dst.size answer ∧
      Landed buffers request.dst.address (dataOf answer) ∧
      ∃ left, Books kernel buffers (inFlight.eraseIdx index) waiting finished left := by
  obtain ⟨inFlight', finished', read⟩ := books
  obtain ⟨⟨request, answer⟩, member, same⟩ :=
    List.mem_map.mp (finished'.mem_iff.mp List.mem_cons_self)
  obtain ⟨before, after, rfl⟩ := List.append_of_mem member
  have flying : request ∈ inFlight := inFlight'.mem_iff.mpr (by simp)
  obtain ⟨index, bound, found⟩ := List.mem_iff_getElem.mp flying
  obtain ⟨answers, landed⟩ := read _ member
  refine ⟨request, answer, index, found ▸ List.getElem?_eq_getElem bound, same.symm, answers,
    landed, before ++ after, ?_, ?_, fun other left => read other ?_⟩
  · have taken : (request :: inFlight.eraseIdx index).Perm
        (request :: (waiting ++ (before ++ after).map (·.1))) := by
      rw [← found]
      refine (List.getElem_cons_eraseIdx_perm bound).trans (inFlight'.trans ?_)
      rw [found, List.map_append, List.map_append, List.map_cons, ← List.append_assoc,
        ← List.append_assoc]
      exact List.perm_middle
    exact taken.cons_inv
  · rw [← same, List.map_append, List.map_cons] at finished'
    rw [List.map_append]
    exact (finished'.trans List.perm_middle).cons_inv
  · rcases List.mem_append.mp left with old | later
    · exact List.mem_append_left _ old
    · exact List.mem_append_right _ (List.mem_cons_of_mem _ later)

/-- A round of `await_front` finishes the first entry with the slot of the completion. -/
theorem awaitReaped_eq {before after : List Pending} {entry : Pending} {completion : Completion}
    (split : stream.pending = before ++ entry :: after) (slot : entry.slot = completion.token)
    (apart : ∀ other ∈ before, other.slot ≠ completion.token) :
    awaitReaped (.ok [completion]) stream =
      if completion.error ≠ 0 then
        (.error ⟨"dsio::for_each_batch: read failed with errno " ++ toString completion.error,
          some completion.error⟩, stream)
      else (.ok (), { stream with
        pending := before ++
          ShardStream.finishEntry stream.windowEnd completion entry :: after }) := by
  simp only [awaitReaped, ShardStream.markDone, split, ShardStream.findIdx?_slot slot apart,
    Option.map_some, ShardStream.modify_length_append]

/-- One request is no longer in flight, and its bytes are in the buffers of both. -/
theorem Refines.complete {concrete : ShardStream} {backend : implementation.Backend}
    {idealBackend : Dsio.Backend} {index : Nat} {request : ReadRequest} {data : List Byte}
    {left : List (ReadRequest × Except Nat (List Byte))} {pending : List Pending} {slot : Nat}
    (refines : Refines contract taken ⟨concrete, some backend⟩ stream)
    (safe : ShardStream.Safe stream) (ideal : stream.backend = some idealBackend)
    (found : stream.inFlight[index]? = some request)
    (landed : Landed concrete.buffers request.dst.address data)
    (bound : slot < stream.buffers.length)
    (own : (stream.bufferAt slot).address = request.dst.address)
    (rest : Books (environment.kernel (environment.disk.content stream.file.path))
      concrete.buffers (stream.inFlight.eraseIdx index) (contract.waiting backend)
      (contract.finished backend) left)
    (entries : ∀ entry ∈ pending, entry.done = true →
      entry ∈ stream.pending ∨ entry.slot = slot ∧ entry.bytes ≤ data.length) :
    Refines contract [] ⟨{ concrete with pending }, some backend⟩
      { stream.complete index data with pending } where
  frame := by
    have frame := refines.frame
    dsimp only at frame ⊢
    rw [ShardStream.complete_eq found, frame]
    rfl
  buffers := by
    rw [ShardStream.complete_eq found]
    exact refines.buffers.trans (map_extent_receive ..).symm
  copied := by
    intro entry member done
    rw [ShardStream.complete_eq found]
    rcases entries entry member done with old | ⟨rfl, fewer⟩
    · have apart := safe.uncopied entry old done request (List.mem_of_getElem? found)
      have same := bufferAt_receive apart data
      simp only [ShardStream.bufferAt] at same ⊢
      rw [same]
      exact refines.copied entry old done
    · have same := landed.bufferAt refines.buffers bound own
      have shared := congrArg (List.take entry.bytes) same
      rw [List.take_take, List.take_take, Nat.min_eq_left fewer] at shared
      exact shared
  backends := by
    have backends := refines.backends
    rw [ideal] at backends
    cases backends with
    | opened holds depth books =>
        rw [ShardStream.complete_eq found]
        simp only [ShardStream.inFlight, ideal] at rest
        simp only [ideal, Option.map_some]
        exact .opened holds depth rest

/-- The completion that was reported goes to the same entry in both, whose bytes have landed
in both. -/
theorem Refines.reported {concrete : ShardStream} {backend : implementation.Backend}
    {completion : Completion}
    (refines : Refines contract [completion] ⟨concrete, some backend⟩ stream)
    (sound : ShardStream.Sound environment.disk stream) :
    ∃ index data, ShardStream.Reaps environment stream (.completed index completion data) ∧
      (awaitReaped (.ok [completion]) concrete).1 =
        (stream.awaitOne (.completed index completion data)).1 ∧
      Refines contract [] ⟨(awaitReaped (.ok [completion]) concrete).2, some backend⟩
        (stream.awaitOne (.completed index completion data)).2 := by
  have backends := refines.backends
  dsimp only at backends
  generalize ideal : stream.backend = idealBackend at backends
  cases backends with
  | @opened _ idealBackend done holds depth books =>
      obtain ⟨request, answer, index, found, rfl, answers, landed, left, rest⟩ := books.reported
      have inFlight : stream.inFlight = idealBackend.inFlight := by
        simp only [ShardStream.inFlight, ideal]
      rw [← inFlight] at found rest
      refine ⟨index, dataOf answer, ⟨request, found, reports_of_kernel answers⟩, ?_⟩
      have token : (completionOf request.token answer).token = request.token := by
        cases answer <;> rfl
      obtain ⟨before, entry, after, split, waiting, same, awaited⟩ :=
        sound.awaitOne found token (dataOf answer)
      have pending : concrete.pending = before ++ entry :: after := by
        have frame := refines.frame
        dsimp only at frame
        rw [frame]
        exact split
      have window : concrete.windowEnd = stream.windowEnd := by
        have frame := refines.frame
        dsimp only at frame
        rw [frame]
        rfl
      have slot : entry.slot = (completionOf request.token answer).token := by
        rw [token, ← same]
        rfl
      have distinct := sound.distinct
      rw [split, List.map_append, List.map_cons, List.nodup_append] at distinct
      have apart : ∀ other ∈ before, other.slot ≠ (completionOf request.token answer).token :=
        fun other member equal => distinct.2.2 _ (List.mem_map.mpr ⟨other, member, rfl⟩) _
          List.mem_cons_self (equal.trans slot.symm)
      have bound := sound.slot_lt (split ▸ List.mem_append_right _ List.mem_cons_self)
      have own : (stream.bufferAt entry.slot).address = request.dst.address := by
        rw [← same]
        rfl
      rw [awaited, ← window, awaitReaped_eq pending slot apart]
      by_cases failed : (completionOf request.token answer).error ≠ 0
      · rw [if_pos failed, if_pos failed]
        refine ⟨rfl, ?_⟩
        have kept := refines.complete sound.safe ideal found landed bound own rest
          (fun other (member : other ∈ concrete.pending) _ => .inl (split ▸ pending ▸ member))
        have whole : { stream.complete index (dataOf answer) with pending := concrete.pending } =
            stream.complete index (dataOf answer) := by
          rw [ShardStream.complete_eq found, pending, ← split]
        rwa [whole] at kept
      · rw [if_neg failed, if_neg failed]
        have entries : ∀ other ∈ before ++ ShardStream.finishEntry concrete.windowEnd
            (completionOf request.token answer) entry :: after, other.done = true →
            other ∈ stream.pending ∨
              other.slot = entry.slot ∧ other.bytes ≤ (dataOf answer).length := by
          intro other member _
          rw [split]
          rcases List.mem_append.mp member with old | last
          · exact .inl (List.mem_append_left _ old)
          · rcases List.mem_cons.mp last with rfl | later
            · refine .inr ⟨rfl, Nat.le_trans (Nat.min_le_left _ _) ?_⟩
              cases answer <;> exact Nat.le_refl _
            · exact .inl (List.mem_append_right _ (List.mem_cons_of_mem _ later))
        exact ⟨rfl, refines.complete sound.safe ideal found landed bound own rest entries⟩

end Backed

end Dsio
