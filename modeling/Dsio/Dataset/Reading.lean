import Dsio.Dataset.ShardStream
import Dsio.Library.Transition
import Dsio.Library.Window

/-!
# Reading the stream

`Step` runs `ShardStream::read` from one system call to the next. What the system
calls give is restricted by an `Environment`: the files, whether calls may fail, and
how many bytes a successful read may report. The backend completes the requests in
flight in any order. `Reads` is one call of `read` and `Calls` a sequence of them,
which an error ends: `for_each_batch` reads no further after one.
-/

namespace Dsio

open Transition Window

/-- The files a run finds, which do not change under it. File sizes are an `off_t`. -/
structure Disk where
  content : String → List Byte
  alignment : String → Nat
  aligned : ∀ path, 0 < alignment path
  bounded : ∀ path, (content path).length < 2 ^ 63

/-- What the system does: `reports requested available bytes` allows a read of
`requested` bytes, `available` of which the file has at its offset, to report `bytes`. -/
structure Environment where
  disk : Disk
  fails : Prop
  reports : Nat → Nat → Nat → Prop

/-- Reads are full up to the end of the file. -/
def fullReads (requested available bytes : Nat) : Prop := bytes = min requested available

/-- Nothing fails, and reads are full. -/
def reliable (disk : Disk) : Environment := ⟨disk, False, fullReads⟩

/-- Anything may fail; reads that succeed are full. -/
def honest (disk : Disk) : Environment := ⟨disk, True, fullReads⟩

/-- The bytes of a shard that its file has. -/
def Disk.bytesOf (disk : Disk) (shard : Shard) : List Byte :=
  window (disk.content shard.path) shard.offset shard.length

/-- Those up to `shard.end()`, which may have wrapped. -/
def Disk.windowOf (disk : Disk) (shard : Shard) : List Byte :=
  window (disk.content shard.path) shard.offset (shard.end - shard.offset)

/-- The window of a shard that does not overflow has its length. -/
theorem Disk.windowOf_eq (disk : Disk) {shard : Shard} (noOverflow : shard.NoOverflow) :
    disk.windowOf shard = disk.bytesOf shard := by
  rw [windowOf, noOverflow.end_eq, Nat.add_sub_cancel_left, bytesOf]

namespace ShardStream

/-- Where `read` stands between two steps, with the bytes in `out` so far. -/
inductive Point where
  /-- At the head of the loop. -/
  | loop (size : Nat) (out : List Byte)
  /-- In `await_front`. -/
  | await (size : Nat) (out : List Byte)
  | returned (got : Outcome (List Byte))
deriving DecidableEq

structure Config where
  stream : ShardStream
  point : Point
deriving DecidableEq

/-- The state in which `read(out)` with `out.size() = size` enters its loop. -/
def startRead (size : Nat) (stream : ShardStream) : Config :=
  ⟨(stream.flushCarry size).2, .loop size (stream.flushCarry size).1⟩

def afterOpen (size : Nat) (out : List Byte) : Outcome Unit × ShardStream → Config
  | (.error error, stream) => ⟨stream, .returned (.error error)⟩
  | (.ok (), stream) => ⟨stream, .loop size out⟩

def afterFill (size : Nat) (out : List Byte) : Outcome Unit × ShardStream → Config
  | (.error error, stream) => ⟨stream, .returned (.error error)⟩
  | (.ok (), stream) =>
      if stream.pending = [] then ⟨stream.closeShard, .loop size out⟩
      else ⟨stream, .await size out⟩

def afterReap (size : Nat) (out : List Byte) : Outcome Unit × ShardStream → Config
  | (.error error, stream) => ⟨stream, .returned (.error error)⟩
  | (.ok (), stream) => ⟨stream, .await size out⟩

def afterTake (entry : Pending) (size : Nat) (out : List Byte) :
    List Byte × Nat × ShardStream → Config
  | (copied, left, stream) =>
      if 0 < left then ⟨stream, .returned (.ok (out ++ copied))⟩
      else if entry.bytes = 0 then ⟨stream.closeShard, .loop size (out ++ copied)⟩
      else ⟨stream, .loop size (out ++ copied)⟩

/-! ## What the environment allows -/

/-- A file that opens is the one asked for, and buffers come from fresh allocations. -/
structure Opens (environment : Environment) (stream : ShardStream) (opening : Opening) : Prop where
  path : ∀ file, opening.file = .ok file →
    file.path = (stream.shardAt stream.next).path ∧
      file.alignment = environment.disk.alignment file.path
  fresh : ∀ addresses, opening.allocated = .ok addresses →
    addresses.length = stream.readDepth ∧ addresses.Nodup ∧
      ∀ buffer ∈ stream.buffers, buffer.address ∉ addresses
  failure : environment.fails ∨
    (∃ file, opening.file = .ok file) ∧ (∃ addresses, opening.allocated = .ok addresses) ∧
      opening.backend = .ok ()

/-- Calls that succeed. -/
theorem opens_of_calls {environment : Environment} {stream : ShardStream} {file : File}
    {addresses : List Nat} (path : file.path = (stream.shardAt stream.next).path)
    (aligned : file.alignment = environment.disk.alignment file.path)
    (length : addresses.length = stream.readDepth) (distinct : addresses.Nodup)
    (fresh : ∀ buffer ∈ stream.buffers, buffer.address ∉ addresses) :
    Opens environment stream ⟨.ok file, .ok addresses, .ok ()⟩ where
  path := by
    rintro _ ⟨⟩
    exact ⟨path, aligned⟩
  fresh := by
    rintro _ ⟨⟩
    exact ⟨length, distinct, fresh⟩
  failure := .inr ⟨⟨file, rfl⟩, ⟨addresses, rfl⟩, rfl⟩

/-- The requests the fill would submit. -/
def planned (stream : ShardStream) : List ReadRequest := (fillLoop stream.readDepth stream []).2

/-- Whether the backend has room for them. -/
def Fits (stream : ShardStream) : Prop :=
  ∀ backend, stream.backend = some backend →
    backend.inFlight.length + stream.planned.length ≤ backend.options.queueDepth

def Submits (environment : Environment) (stream : ShardStream) : Submission → Prop
  | .accepted => stream.Fits
  | .refused _ _ => environment.fails ∨ ¬ stream.Fits

/-- What a completion reports, and the data it leaves. -/
def Reports (environment : Environment) (content : List Byte) (request : ReadRequest)
    (completion : Completion) (data : List Byte) : Prop :=
  completion.token = request.token ∧
    data = window content request.offset completion.bytes ∧
      (completion.error = 0 ∧
          environment.reports request.dst.size (content.length - request.offset) completion.bytes ∨
        completion.error ≠ 0 ∧ completion.bytes = 0 ∧ environment.fails)

def Reaps (environment : Environment) (stream : ShardStream) : Reaped → Prop
  | .failed _ => environment.fails
  | .nothing => stream.inFlight = []
  | .completed index completion data =>
      ∃ request, stream.inFlight[index]? = some request ∧
        Reports environment (environment.disk.content stream.file.path) request completion data

/-! ## Runs -/

inductive Step (environment : Environment) : Config → Config → Prop where
  /-- `out` is full, or every shard has been read. -/
  | finish {stream size out}
      (ends : size ≤ out.length ∨ stream.isOpen = false ∧ stream.order.length ≤ stream.next) :
      Step environment ⟨stream, .loop size out⟩ ⟨stream, .returned (.ok out)⟩
  | openShard {stream size out} (room : out.length < size) (closed : stream.isOpen = false)
      (more : stream.next < stream.order.length) (opening : Opening)
      (allowed : Opens environment stream opening) :
      Step environment ⟨stream, .loop size out⟩ (afterOpen size out (stream.openShard opening))
  | fill {stream size out} (room : out.length < size) (isOpen : stream.isOpen = true)
      (submission : Submission) (allowed : Submits environment stream submission) :
      Step environment ⟨stream, .loop size out⟩
        (afterFill size out (stream.fillPipeline submission))
  | reap {stream size out entry} (front : stream.pending.head? = some entry)
      (waits : entry.done = false) (reaped : Reaped)
      (allowed : Reaps environment stream reaped) :
      Step environment ⟨stream, .await size out⟩ (afterReap size out (stream.awaitOne reaped))
  | take {stream size out entry} (front : stream.pending.head? = some entry)
      (done : entry.done = true) :
      Step environment ⟨stream, .await size out⟩
        (afterTake entry size out (stream.takeFront entry (size - out.length)))

/-- One call of `read` with an `out` of `size` bytes. -/
def Reads (environment : Environment) (size : Nat) (stream : ShardStream)
    (got : Outcome (List Byte)) (after : ShardStream) : Prop :=
  Reaches (Step environment) (startRead size stream) ⟨after, .returned got⟩

/-- Successive calls, the sizes of their `out` and what they returned. -/
inductive Calls (environment : Environment) (start : ShardStream) :
    List Nat → List (List Byte) → ShardStream → Prop where
  | none : Calls environment start [] [] start
  | call {sizes outs stream after size out} (prior : Calls environment start sizes outs stream)
      (reads : Reads environment size stream (.ok out) after) :
      Calls environment start (sizes ++ [size]) (outs ++ [out]) after

/-- A configuration of some call after any number of calls. -/
def Visits (environment : Environment) (start : ShardStream) (config : Config) : Prop :=
  ∃ sizes outs stream size, Calls environment start sizes outs stream ∧
    Reaches (Step environment) (startRead size stream) config

/-- The steps of the stream over its whole life: those of a call of `read`, and the next
call after one that succeeded. -/
inductive Session (environment : Environment) : Config → Config → Prop where
  | step {before after} (transition : Step environment before after) :
      Session environment before after
  | call {stream out} (size : Nat) :
      Session environment ⟨stream, .returned (.ok out)⟩ (startRead size stream)

/-- A stream no call has been made on yet. -/
def idle (stream : ShardStream) : Config := ⟨stream, .returned (.ok [])⟩

variable {environment : Environment} {start : ShardStream}

/-- The invariant rule for calls: `between` holds of the stream between calls and
`during` within one. -/
theorem Calls.preserves (between : ShardStream → Prop) (during : Config → Prop)
    {sizes : List Nat} {outs : List (List Byte)} {stream : ShardStream}
    (calls : Calls environment start sizes outs stream) (initially : between start)
    (enters : ∀ {size stream}, between stream → during (startRead size stream))
    (preserved : ∀ {before after}, during before → Step environment before after → during after)
    (leaves : ∀ {stream out}, during ⟨stream, .returned (.ok out)⟩ → between stream) :
    between stream := by
  induction calls with
  | none => exact initially
  | call _ reads ih => exact leaves (reads.preserves preserved (enters ih))

/-- The invariant rule of calls that follow one another. -/
theorem Visits.preserves (between : ShardStream → Prop) (during : Config → Prop) {config : Config}
    (visits : Visits environment start config) (initially : between start)
    (enters : ∀ {size stream}, between stream → during (startRead size stream))
    (preserved : ∀ {before after}, during before → Step environment before after → during after)
    (leaves : ∀ {stream out}, during ⟨stream, .returned (.ok out)⟩ → between stream) :
    during config := by
  obtain ⟨sizes, outs, stream, size, calls, run⟩ := visits
  exact run.preserves preserved
    (enters (calls.preserves between during initially enters preserved leaves))

end ShardStream

end Dsio
