import Dsio.Dataset.Reading
import Dsio.Service

/-!
# The shard stream over a running backend

In `Dsio.Dataset.Reading` a backend is the requests it has in flight, and a buffer gets its
data when the read is reported. Here the backend is an object of one of its classes: its
threads or the kernel leave the data in the buffers when the reads are done, at any moment
until the backend is destroyed, and `reap` runs step by step.
-/

namespace Dsio

open Transition Window

/-- What a positional read of a file with this content gives. -/
def Environment.kernel (environment : Environment) (content : List Byte) : Kernel :=
  fun offset length answer =>
    match answer with
    | .ok data => data = window content offset data.length ∧
        environment.reports length (content.length - offset) data.length
    | .error errno => environment.fails ∧ errno ≠ 0

/-- A `ShardStream` with the object `backend_` points to. Its member `stream.backend` is what
the backend was opened with. -/
structure Backed (implementation : Implementation) where
  stream : ShardStream
  backend : Option implementation.Backend := none

namespace Backed

variable {implementation : Implementation}

/-- Where `read` stands between two steps, with the bytes in `out` so far. -/
inductive Point (Call : Type) where
  | loop (size : Nat) (out : List Byte)
  /-- At the head of the loop of `await_front`. -/
  | await (size : Nat) (out : List Byte)
  /-- In its call of `reap`. -/
  | reaping (size : Nat) (out : List Byte) (call : Call)
  | returned (got : Outcome (List Byte))
deriving DecidableEq

structure Config (implementation : Implementation) where
  backed : Backed implementation
  point : Point implementation.Call

def startRead (size : Nat) (backed : Backed implementation) : Config implementation :=
  ⟨{ backed with stream := (backed.stream.flushCarry size).2 },
    .loop size (backed.stream.flushCarry size).1⟩

/-- `close_shard`, which destroys the backend before anything else. -/
def closeShard (backed : Backed implementation) : Backed implementation :=
  ⟨backed.stream.closeShard, none⟩

/-- What `open_shard` passes to `open_backend`. -/
def backendOptions (stream : ShardStream) : BackendOptions where
  queueDepth := stream.readDepth
  threads := min stream.readDepth 8

def afterOpen (size : Nat) (out : List Byte) (backed : Backed implementation)
    (opened : Outcome implementation.Backend) : Outcome Unit × ShardStream → Config implementation
  | (.error error, stream) => ⟨{ backed with stream }, .returned (.error error)⟩
  | (.ok (), stream) => ⟨⟨stream, opened.toOption⟩, .loop size out⟩

/-- After a fill: the shard is exhausted when nothing is pending. -/
def afterFill (size : Nat) (out : List Byte) (backed : Backed implementation) :
    Config implementation :=
  if backed.stream.pending = [] then ⟨backed.closeShard, .loop size out⟩
  else ⟨backed, .await size out⟩

/-- The end of `fill_pipeline`, once `submit` has returned. -/
def afterSubmit (size : Nat) (out : List Byte) (before filled : ShardStream) (count : Nat)
    (backend : implementation.Backend) : Outcome Unit → Config implementation
  | .ok () => afterFill size out ⟨filled, some backend⟩
  | .error error =>
      ⟨⟨{ ShardStream.rollBack^[count] filled with nextOffset := before.nextOffset },
        some backend⟩, .returned (.error error)⟩

/-- One round of `await_front`, once `reap` has returned. -/
def awaitReaped (got : Outcome (List Completion)) (stream : ShardStream) :
    Outcome Unit × ShardStream :=
  match got with
  | .error error => (.error error, stream)
  | .ok [] => (.error ⟨"dsio::for_each_batch: the backend reaped nothing", none⟩, stream)
  | .ok (completion :: _) =>
      match stream.markDone completion with
      | none =>
          (.error ⟨"dsio::for_each_batch: completion for an unknown request", none⟩, stream)
      | some marked =>
          if completion.error ≠ 0 then
            (.error ⟨"dsio::for_each_batch: read failed with errno " ++ toString completion.error,
              some completion.error⟩, stream)
          else (.ok (), marked)

def afterReap (size : Nat) (out : List Byte) (backend : Option implementation.Backend) :
    Outcome Unit × ShardStream → Config implementation
  | (.error error, stream) => ⟨⟨stream, backend⟩, .returned (.error error)⟩
  | (.ok (), stream) => ⟨⟨stream, backend⟩, .await size out⟩

def afterTake (entry : Pending) (size : Nat) (out : List Byte)
    (backend : Option implementation.Backend) :
    List Byte × Nat × ShardStream → Config implementation
  | (copied, left, stream) =>
      if 0 < left then ⟨⟨stream, backend⟩, .returned (.ok (out ++ copied))⟩
      else if entry.bytes = 0 then
        ⟨closeShard ⟨stream, backend⟩, .loop size (out ++ copied)⟩
      else ⟨⟨stream, backend⟩, .loop size (out ++ copied)⟩

/-- A read of the backend is done: its data is in the buffer at that address. -/
inductive Serves (environment : Environment) : Backed implementation → Backed implementation → Prop
    where
  | serve {stream backend dst data after}
      (serves : implementation.serves
        (environment.kernel (environment.disk.content stream.file.path)) backend dst data after) :
      Serves environment ⟨stream, some backend⟩
        ⟨{ stream with buffers := stream.buffers.map (AlignedBuffer.receive dst.address data) },
          some after⟩

/-- The steps of the thread that reads, and of the reads under it. -/
inductive Step (environment : Environment)
    (opens : Int → BackendOptions → Outcome implementation.Backend → Prop) :
    Config implementation → Config implementation → Prop where
  | finish {backed size out}
      (ends : size ≤ out.length ∨
        backed.stream.isOpen = false ∧ backed.stream.order.length ≤ backed.stream.next) :
      Step environment opens ⟨backed, .loop size out⟩ ⟨backed, .returned (.ok out)⟩
  | openShard {backed size out} (room : out.length < size)
      (closed : backed.stream.isOpen = false)
      (more : backed.stream.next < backed.stream.order.length)
      (opening : ShardStream.Opening) (opened : Outcome implementation.Backend)
      (allowed : ShardStream.Opens environment backed.stream opening)
      (outcome : opening.backend = opened.map fun _ => ())
      (created : ∀ file, opening.file = .ok file →
        opens file.fd (backendOptions backed.stream) opened) :
      Step environment opens ⟨backed, .loop size out⟩
        (afterOpen size out backed opened (backed.stream.openShard opening))
  /-- A fill that queues nothing. -/
  | filled {backed size out stream} (room : out.length < size)
      (isOpen : backed.stream.isOpen = true)
      (fill : ShardStream.fillLoop backed.stream.readDepth backed.stream [] = (stream, [])) :
      Step environment opens ⟨backed, .loop size out⟩
        (afterFill size out { backed with stream })
  | submit {stream size out backend filled requests got after} (room : out.length < size)
      (isOpen : stream.isOpen = true)
      (fill : ShardStream.fillLoop stream.readDepth stream [] = (filled, requests))
      (queues : requests ≠ []) (submits : implementation.submits backend requests got after) :
      Step environment opens ⟨⟨stream, some backend⟩, .loop size out⟩
        (afterSubmit size out stream filled requests.length after got)
  | reap {stream backend size out entry} (front : stream.pending.head? = some entry)
      (waits : entry.done = false) :
      Step environment opens ⟨⟨stream, some backend⟩, .await size out⟩
        ⟨⟨stream, some backend⟩, .reaping size out (implementation.begins 1 1 backend)⟩
  | move {stream backend size out call after next}
      (moves : implementation.moves backend call after next) :
      Step environment opens ⟨⟨stream, some backend⟩, .reaping size out call⟩
        ⟨⟨stream, some after⟩, .reaping size out next⟩
  | reaped {backed size out call got} (ends : implementation.ends call = some got) :
      Step environment opens ⟨backed, .reaping size out call⟩
        (afterReap size out backed.backend (awaitReaped got backed.stream))
  | take {backed size out entry} (front : backed.stream.pending.head? = some entry)
      (done : entry.done = true) :
      Step environment opens ⟨backed, .await size out⟩
        (afterTake entry size out backed.backend
          (backed.stream.takeFront entry (size - out.length)))
  | serve {before after point} (serves : Serves environment before after) :
      Step environment opens ⟨before, point⟩ ⟨after, point⟩

end Backed

end Dsio
