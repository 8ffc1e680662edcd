import Dsio.AlignedBuffer
import Dsio.Backend
import Dsio.Outcome
import Dsio.Shard

/-!
# The shard stream

`ShardStream` reads a shard set as one continuous byte stream. The functions here
are those of the class; where one of them calls the system (opens a file, allocates,
submits, reaps), what the call gave is an argument. The loops of `read` and
`await_front` are the steps of `Dsio.Dataset.Reading`, since other things happen
between their rounds.
-/

namespace Dsio

/-- How `for_each_batch` reads. -/
structure BatchOptions where
  batchBytes : Nat := 2 ^ 20
  prefetch : Nat := 2
  readDepth : Nat := 16
  segmentBytes : Nat := 0
  seed : Nat := 0
deriving DecidableEq, Repr

/-- A `Backend` as the stream sees it: the requests it was handed and has not
reported. -/
structure Backend where
  fd : Int
  options : BackendOptions
  inFlight : List ReadRequest := []
deriving DecidableEq, Repr

/-- `ShardStream::Pending`. -/
structure Pending where
  offset : Nat := 0
  slot : Nat := 0
  bytes : Nat := 0
  done : Bool := false
deriving DecidableEq, Repr

/-- The members of the class, in the order they are declared. -/
structure ShardStream where
  shards : ShardSet
  order : List Nat
  options : BatchOptions
  readDepth : Nat
  next : Nat := 0
  file : File := {}
  backend : Option Backend := none
  buffers : List AlignedBuffer := []
  free : List Bool := []
  pending : List Pending := []
  block : Nat := 0
  segment : Nat := 0
  windowEnd : Nat := 0
  nextOffset : Nat := 0
  isOpen : Bool := false
  carry : List Byte := []
  carrySize : Nat := 0
deriving DecidableEq, Repr

namespace ShardStream

def construct (shards : ShardSet) (order : List Nat) (options : BatchOptions) : ShardStream where
  shards := shards
  order := order
  options := options
  readDepth := max options.readDepth 1

/-- `(*shards_)[order_[position]]`. -/
def shardAt (stream : ShardStream) (position : Nat) : Shard :=
  ((stream.order[position]?).bind fun index => stream.shards[index]?).getD {}

/-- `buffers_[slot]`. -/
def bufferAt (stream : ShardStream) (slot : Nat) : AlignedBuffer :=
  (stream.buffers[slot]?).getD {}

/-- The requests in flight in the backend, if there is one. -/
def inFlight (stream : ShardStream) : List ReadRequest :=
  match stream.backend with
  | some backend => backend.inFlight
  | none => []

/-! ## Carry -/

def flushCarry (size : Nat) (stream : ShardStream) : List Byte × ShardStream :=
  if stream.carrySize = 0 then ([], stream)
  else
    let take := min stream.carrySize size
    let rest := (stream.carry.take stream.carrySize).drop take
    (copyN take stream.carry,
      { stream with
        carry := if take < stream.carrySize then rest ++ stream.carry.drop rest.length
          else stream.carry
        carrySize := stream.carrySize - take })

/-- Keeps what did not fit in the batch; the vector grows but never shrinks. -/
def storeCarry (left : List Byte) (stream : ShardStream) : ShardStream :=
  { stream with carry := left ++ stream.carry.drop left.length, carrySize := left.length }

/-! ## Slots -/

/-- Takes the first free slot. -/
def takeFree (stream : ShardStream) : Option (Nat × ShardStream) :=
  (stream.free.findIdx? id).map fun slot =>
    (slot, { stream with free := stream.free.set slot false })

def release (slot : Nat) (stream : ShardStream) : ShardStream :=
  { stream with free := stream.free.set slot true }

/-! ## Opening and closing a shard -/

/-- The segment size `open_shard` computes for a file with this block size. -/
def segmentOf (options : BatchOptions) (block : Nat) : Nat :=
  let target := if options.segmentBytes = 0
    then min (max block options.batchBytes) (256 * 1024) else options.segmentBytes
  target - target % block

/-- What the system calls of `open_shard` give: `File::open`, the allocation of
`read_depth` buffers (their addresses, or the first failure), and `open_backend`. -/
structure Opening where
  file : Outcome File
  allocated : Except String (List Nat)
  backend : Outcome Unit

/-- The buffers are reused when the sizes agree, and replaced as a whole otherwise. -/
def prepareBuffers (allocated : Except String (List Nat)) (block segment : Nat)
    (stream : ShardStream) : Outcome Unit × ShardStream :=
  if stream.buffers ≠ [] ∧ stream.block = block ∧ stream.segment = segment ∧
      stream.buffers.length = stream.readDepth then (.ok (), stream)
  else
    match allocated with
    | .error message => (.error ⟨"dsio::for_each_batch: " ++ message, none⟩, stream)
    | .ok addresses =>
        (.ok (), { stream with
          buffers := addresses.map fun address => { address, size := roundUp segment block }
          free := List.replicate stream.readDepth true
          block
          segment })

def openShard (opening : Opening) (stream : ShardStream) : Outcome Unit × ShardStream :=
  let shard := stream.shardAt stream.next
  match opening.file with
  | .error error => (.error error, stream)
  | .ok file =>
      let block := file.alignment
      match stream.prepareBuffers opening.allocated block (segmentOf stream.options block) with
      | (.error error, stream) => (.error error, stream)
      | (.ok (), stream) =>
          match opening.backend with
          | .error error => (.error error, stream)
          | .ok () =>
              (.ok (), { stream with
                file
                backend := some {
                  fd := file.fd
                  options := {
                    queueDepth := stream.readDepth
                    threads := min stream.readDepth 8 } }
                windowEnd := shard.end
                nextOffset := shard.offset
                isOpen := true })

/-- The statements of `close_shard`. -/
def closing : List (ShardStream → ShardStream) := [
  fun stream => { stream with backend := none },
  fun stream => { stream with pending := [] },
  fun stream => { stream with file := {} },
  fun stream => { stream with isOpen := false },
  fun stream => { stream with next := stream.next + 1 }]

def closeShard (stream : ShardStream) : ShardStream :=
  closing.foldl (fun stream statement => statement stream) stream

/-! ## Filling the pipeline -/

/-- The length of a request with `remaining` bytes of the window left: whole blocks,
and one block for a shorter tail. -/
def requestLength (stream : ShardStream) (remaining : Nat) : Nat :=
  let length := min stream.segment remaining
  let whole := length - length % stream.block
  if whole = 0 then stream.block else whole

/-- `buffers_[slot].span().first(length)`. -/
def bufferSpan (stream : ShardStream) (slot length : Nat) : Span :=
  ⟨(stream.bufferAt slot).address, length⟩

/-- One round of the loop of `fill_pipeline`, with the slot it took. -/
def enqueue (stream : ShardStream) (slot : Nat) : ReadRequest × ShardStream :=
  let remaining := stream.windowEnd - stream.nextOffset
  let length := stream.requestLength remaining
  (⟨stream.nextOffset, stream.bufferSpan slot length, slot⟩,
    { stream with
      pending := stream.pending ++ [{ offset := stream.nextOffset, slot }]
      nextOffset := stream.nextOffset + min length remaining })

/-- The loop of `fill_pipeline`. Every round adds a request, and the guard stops
before there are `read_depth` of them. -/
def fillLoop : Nat → ShardStream → List ReadRequest → ShardStream × List ReadRequest
  | 0, stream, requests => (stream, requests)
  | rounds + 1, stream, requests =>
      if stream.pending.length + requests.length < stream.readDepth ∧
          stream.nextOffset < stream.windowEnd then
        match stream.takeFree with
        | none => (stream, requests)
        | some (slot, stream) =>
            fillLoop rounds (stream.enqueue slot).2 (requests ++ [(stream.enqueue slot).1])
      else (stream, requests)

/-- What `backend_->submit` gives: `queued` of the requests reached the backend although
the call failed. -/
inductive Submission where
  | accepted
  | refused (error : Error) (queued : Nat)
deriving DecidableEq

/-- Hands requests to the backend. -/
def submit (requests : List ReadRequest) (stream : ShardStream) : ShardStream :=
  { stream with backend := stream.backend.map fun backend =>
      { backend with inFlight := backend.inFlight ++ requests } }

/-- One round of the roll-back after a refused submission. -/
def rollBack (stream : ShardStream) : ShardStream :=
  match stream.pending.getLast? with
  | some entry => { release entry.slot stream with pending := stream.pending.dropLast }
  | none => stream

def fillPipeline (submission : Submission) (stream : ShardStream) : Outcome Unit × ShardStream :=
  let (filled, requests) := fillLoop stream.readDepth stream []
  if requests = [] then (.ok (), filled)
  else
    match submission with
    | .accepted => (.ok (), filled.submit requests)
    | .refused error queued =>
        (.error error,
          { rollBack^[requests.length] (filled.submit (requests.take queued)) with
            nextOffset := stream.nextOffset })

/-! ## Reaping and consuming -/

/-- What `backend_->reap` of one completion gives: an error, nothing, or the completion
of the request at `index` with the data its read left in the buffer. -/
inductive Reaped where
  | failed (error : Error)
  | nothing
  | completed (index : Nat) (completion : Completion) (data : List Byte)
deriving DecidableEq

/-- The backend reports a request: its data is in the buffer it was read into. -/
def complete (index : Nat) (data : List Byte) (stream : ShardStream) : ShardStream :=
  match stream.inFlight[index]? with
  | none => stream
  | some request =>
      { stream with
        backend := stream.backend.map fun backend =>
          { backend with inFlight := backend.inFlight.eraseIdx index }
        buffers := stream.buffers.map (AlignedBuffer.receive request.dst.address data) }

/-- The entry of a finished read, whose bytes past the window do not count. -/
def finishEntry (windowEnd : Nat) (completion : Completion) (entry : Pending) : Pending :=
  { entry with bytes := min completion.bytes (windowEnd - entry.offset), done := true }

/-- The first entry a completion belongs to, marked done. -/
def markDone (completion : Completion) (stream : ShardStream) : Option ShardStream :=
  (stream.pending.findIdx? fun candidate => candidate.slot = completion.token).map fun index =>
    { stream with pending := stream.pending.modify index (finishEntry stream.windowEnd completion) }

/-- One round of `await_front`. -/
def awaitOne (reaped : Reaped) (stream : ShardStream) : Outcome Unit × ShardStream :=
  match reaped with
  | .failed error => (.error error, stream)
  | .nothing => (.error ⟨"dsio::for_each_batch: the backend reaped nothing", none⟩, stream)
  | .completed index completion data =>
      let stream := stream.complete index data
      match stream.markDone completion with
      | none =>
          (.error ⟨"dsio::for_each_batch: completion for an unknown request", none⟩, stream)
      | some marked =>
          if completion.error ≠ 0 then
            (.error ⟨"dsio::for_each_batch: read failed with errno " ++ toString completion.error,
              some completion.error⟩, stream)
          else (.ok (), marked)

/-- What `read` does with the front entry once it is done and `out` has room for `room`
more bytes. Gives the bytes it copies there and how many it had to carry. -/
def takeFront (entry : Pending) (room : Nat) (stream : ShardStream) :
    List Byte × Nat × ShardStream :=
  let take := min room entry.bytes
  let left := entry.bytes - take
  let buffer := (stream.bufferAt entry.slot).bytes
  let kept := if 0 < left then stream.storeCarry (copyN left (buffer.drop take)) else stream
  (copyN take buffer, left, { release entry.slot kept with pending := stream.pending.tail })

end ShardStream

end Dsio
