import Mathlib.Data.Prod.Lex
import Dsio.AlignedBuffer
import Dsio.FileReading

/-!
# The direct reader

`DirectReader` reads a window of a file front to back, a block at a time. `Step` runs
`next_chunk` from one system call to the next, and `Drain` calls it until a chunk is
empty.
-/

namespace Dsio

open Transition Window

/-- One block of a file; `bytes` is what the reader's buffer holds when `next_chunk`
returns. -/
structure Chunk where
  bytes : List Byte := []
  offset : Nat := 0
deriving DecidableEq, Repr

structure DirectReader where
  file : File := {}
  buffer : AlignedBuffer := {}
  start : Nat := 0
  «end» : Nat := 0
  position : Nat := 0
deriving DecidableEq, Repr

namespace DirectReader

/-! ## Opening -/

/-- What the system calls of `open` give: `File::open`, `fstat`, and the allocation of the
buffer (its address). -/
structure Opening where
  file : Outcome File
  stat : Except Nat Nat
  allocated : Except String Nat

def openWindow (allocated : Except String Nat) (file : File) (offset length : Nat) :
    Outcome DirectReader :=
  match allocated with
  | .error message => .error ⟨"dsio::DirectReader::open: " ++ message, none⟩
  | .ok address =>
      .ok {
        file
        buffer := { address, size := roundUp file.alignment file.alignment }
        start := offset
        «end» := (offset + length) % 2 ^ 64
        position := offset }

/-- `open(path)`. -/
def openWhole (strerror : Nat → String) (opening : Opening) : Outcome DirectReader :=
  match opening.file with
  | .error error => .error error
  | .ok file =>
      match file.size strerror opening.stat with
      | .error error => .error error
      | .ok size => openWindow opening.allocated file 0 size

/-- `open(path, offset, length)`. -/
def «open» (strerror : Nat → String) (opening : Opening) (offset length : Nat) :
    Outcome DirectReader :=
  match opening.file with
  | .error error => .error error
  | .ok file =>
      if offset % file.alignment ≠ 0 then
        .error ⟨"dsio::DirectReader::open: offset " ++ toString offset ++
          " is not a multiple of the file's alignment " ++ toString file.alignment, none⟩
      else
        match file.size strerror opening.stat with
        | .error error => .error error
        | .ok size =>
            if size < offset then
              .error ⟨"dsio::DirectReader::open: offset " ++ toString offset ++
                " is past the end of the file (" ++ toString size ++ " bytes)", none⟩
            else openWindow opening.allocated file offset (min length (size - offset))

/-! ## Chunks -/

/-- Where `next_chunk` stands. -/
inductive Point where
  /-- In `pread_exact`. -/
  | exact (point : File.ExactPoint)
  | returned (chunk : Outcome Chunk)
deriving DecidableEq

structure Config where
  reader : DirectReader
  point : Point
deriving DecidableEq

/-- The state in which a call of `next_chunk` reads, unless it is past the window. -/
def nextChunk (reader : DirectReader) : Config :=
  if reader.end ≤ reader.position then ⟨reader, .returned (.ok ⟨[], reader.position⟩)⟩
  else ⟨reader, .exact (reader.file.exactLoop reader.buffer.size [])⟩

/-- What `next_chunk` makes of what `pread_exact` gave. -/
def takeChunk (read : Outcome (List Byte)) (reader : DirectReader) : Config :=
  match read with
  | .error error => ⟨reader, .returned (.error error)⟩
  | .ok got =>
      let reader := { reader with buffer := reader.buffer.write got }
      if got.length = 0 then ⟨reader, .returned (.ok ⟨[], reader.position⟩)⟩
      else
        let bytes := min got.length (reader.end - reader.position)
        ⟨{ reader with position := reader.position + bytes },
          .returned (.ok ⟨copyN bytes reader.buffer.bytes, reader.position⟩)⟩

/-- `reset()`. -/
def reset (reader : DirectReader) : DirectReader := { reader with position := reader.start }

inductive Step (kernel : Kernel) (strerror : Nat → String) : Config → Config → Prop where
  | pread {reader got answer}
      (answers : kernel (reader.position + got.length) (reader.buffer.size - got.length) answer) :
      Step kernel strerror ⟨reader, .exact (.reading got)⟩
        ⟨reader, .exact (reader.file.exactNext strerror reader.buffer.size got answer)⟩
  | take {reader read} :
      Step kernel strerror ⟨reader, .exact (.returned read)⟩ (reader.takeChunk read)

/-- A reader that is being drained, and the chunks it has yielded. -/
structure Drain where
  config : Config
  chunks : List Chunk := []

namespace Drain

/-- A step of a call, or the next call after a chunk that is not empty. -/
inductive Step (kernel : Kernel) (strerror : Nat → String) : Drain → Drain → Prop where
  | call {before after chunks} (transition : DirectReader.Step kernel strerror before after) :
      Step kernel strerror ⟨before, chunks⟩ ⟨after, chunks⟩
  | next {reader chunk chunks} (some : chunk.bytes ≠ []) :
      Step kernel strerror ⟨⟨reader, .returned (.ok chunk)⟩, chunks⟩
        ⟨reader.nextChunk, chunks ++ [chunk]⟩

/-- The last call has returned an empty chunk. -/
def Drained (drain : Drain) : Prop :=
  ∃ chunk, drain.config.point = .returned (.ok chunk) ∧ chunk.bytes = []

/-- The bytes of the chunks. -/
def bytes (drain : Drain) : List Byte := drain.chunks.flatMap (·.bytes)

end Drain

/-! ## What draining yields -/

/-- The window of a reader is inside the file and its buffer holds something. -/
structure Fits (content : List Byte) (reader : DirectReader) : Prop where
  ordered : reader.start ≤ reader.end
  inside : reader.end ≤ content.length
  room : 0 < reader.buffer.size

/-- What has been yielded is the window up to the position, and an empty chunk comes at
its end. -/
def Yields (content : List Byte) (reader : DirectReader) (yielded : List Byte) : Point → Prop
  | .exact point => reader.position < reader.end ∧
      yielded = window content reader.start (reader.position - reader.start) ∧
      point.Genuine content reader.position reader.buffer.size
  | .returned (.ok chunk) =>
      yielded ++ chunk.bytes = window content reader.start (reader.position - reader.start) ∧
        (chunk.bytes = [] → reader.position = reader.end)
  | .returned (.error _) => True

structure Drain.Inv (content : List Byte) (drain : Drain) : Prop where
  fits : Fits content drain.config.reader
  started : drain.config.reader.start ≤ drain.config.reader.position
  within : drain.config.reader.position ≤ drain.config.reader.end
  yields : Yields content drain.config.reader drain.bytes drain.config.point

variable {content : List Byte} {reader : DirectReader} {kernel : Kernel}
variable {strerror : Nat → String}

/-- A reader that has yielded all up to its position calls `pread_exact` or is at its
end. -/
theorem Fits.nextChunk {chunks : List Chunk} (fits : Fits content reader)
    (started : reader.start ≤ reader.position) (within : reader.position ≤ reader.end)
    (yielded : chunks.flatMap (·.bytes) =
      window content reader.start (reader.position - reader.start)) :
    Drain.Inv content ⟨reader.nextChunk, chunks⟩ := by
  simp only [DirectReader.nextChunk]
  split
  · next ended =>
    exact ⟨fits, started, within, by simpa [Drain.bytes] using yielded,
      fun _ => Nat.le_antisymm within ended⟩
  · next more =>
    exact ⟨fits, started, within, Nat.not_le.mp more, yielded,
      File.exactLoop_genuine (window_zero content _).symm (Nat.zero_le _)⟩

/-- The chunk for the position of a reader: a block of the window, or what is left of it. -/
def piece (content : List Byte) (reader : DirectReader) : Chunk :=
  ⟨window content reader.position (min reader.buffer.size (reader.end - reader.position)),
    reader.position⟩

/-- A piece is as long as the buffer, or as what is left of the window. -/
theorem Fits.length_piece (fits : Fits content reader) : (reader.piece content).bytes.length =
    min reader.buffer.size (reader.end - reader.position) := by
  have inside := fits.inside
  rw [piece, length_window]
  omega

/-- Inside its window a reader makes the next piece of what it read. -/
theorem Fits.takeChunk_eq {got : List Byte} (fits : Fits content reader)
    (more : reader.position < reader.end)
    (read : got = window content reader.position reader.buffer.size) :
    reader.takeChunk (.ok got) = ⟨{ reader with
      buffer := reader.buffer.write got
      position := reader.position + (reader.piece content).bytes.length },
      .returned (.ok (reader.piece content))⟩ := by
  have room := fits.room
  have inside := fits.inside
  have length := congrArg List.length read
  rw [length_window] at length
  have some : ¬ got.length = 0 := by omega
  have counted : min got.length (reader.end - reader.position) =
      (reader.piece content).bytes.length := by
    rw [fits.length_piece]
    omega
  have enough : min got.length (reader.end - reader.position) ≤
      (reader.buffer.write got).bytes.length := by
    simp only [AlignedBuffer.write, List.length_take, List.length_append]
    omega
  have taken : copyN (min got.length (reader.end - reader.position))
      (reader.buffer.write got).bytes = (reader.piece content).bytes := by
    rw [copyN_eq_take enough, AlignedBuffer.take_write (by omega) (Nat.min_le_left _ _), read,
      take_window, length_window, piece]
    congr 1
    omega
  rw [counted] at taken
  simp only [DirectReader.takeChunk, if_neg some, counted, taken]
  rfl

/-- The bytes of a read, as far as the window goes, follow on what was yielded. -/
theorem Drain.Inv.takeChunk {read : Outcome (List Byte)} {chunks : List Chunk}
    (inv : Drain.Inv content ⟨⟨reader, .exact (.returned read)⟩, chunks⟩) :
    Drain.Inv content ⟨reader.takeChunk read, chunks⟩ := by
  obtain ⟨fits, started, within, more, yielded, genuine⟩ := inv
  cases read with
  | error error => exact ⟨fits, started, within, trivial⟩
  | ok got =>
      have length := fits.length_piece
      have room := fits.room
      rw [fits.takeChunk_eq more genuine]
      refine ⟨⟨fits.ordered, fits.inside, fits.room⟩, ?_, ?_, ?_, fun none => ?_⟩
      · exact Nat.le_trans started (Nat.le_add_right _ _)
      · dsimp only at more length ⊢
        omega
      · have split := window_split content reader.start (Nat.le_add_right
          (reader.position - reader.start) (reader.piece content).bytes.length)
        have start : reader.start + (reader.position - reader.start) = reader.position :=
          Nat.add_sub_of_le started
        have total : reader.position + (reader.piece content).bytes.length - reader.start =
            reader.position - reader.start + (reader.piece content).bytes.length := by
          dsimp only at started
          omega
        rw [Nat.add_sub_cancel_left, start] at split
        have piece : window content reader.position (reader.piece content).bytes.length =
            (reader.piece content).bytes := by
          rw [length]
          rfl
        dsimp only
        rw [total, split, piece]
        exact congrArg (· ++ _) yielded
      · rw [none, List.length_nil] at length
        dsimp only at more length room
        omega

/-- An answer extends the piece that is read; a chunk extends what was yielded. -/
theorem Drain.Inv.step {before after : Drain} (truthful : Truthful kernel content)
    (inv : before.Inv content) (transition : Drain.Step kernel strerror before after) :
    after.Inv content := by
  cases transition with
  | call transition =>
      cases transition with
      | pread answers =>
          obtain ⟨fits, started, within, more, yielded, genuine⟩ := inv
          exact ⟨fits, started, within, more, yielded,
            File.exactNext_genuine truthful genuine answers⟩
      | take => exact inv.takeChunk
  | @next reader chunk chunks some =>
      obtain ⟨fits, started, within, yielded, -⟩ := inv
      refine fits.nextChunk started within ?_
      simpa [Drain.bytes] using yielded

/-! ## Draining ends -/

/-- The descriptor is open and no call has failed. -/
def Drain.Calm (drain : Drain) : Prop :=
  0 ≤ drain.config.reader.file.fd ∧
    ∀ error, drain.config.point ≠ .exact (.returned (.error error)) ∧
      drain.config.point ≠ .returned (.error error)

/-- On an open descriptor the loop returns no error before its next answer. -/
theorem exactLoop_calm {file : File} (opened : 0 ≤ file.fd) (size : Nat) (got : List Byte)
    (error : Error) : file.exactLoop size got ≠ .returned (.error error) := by
  have valid : ¬ file.fd < 0 := Int.not_lt.mpr opened
  simp only [File.exactLoop, if_neg valid]
  split <;> simp

/-- On an open descriptor `next_chunk` begins without an error. -/
theorem nextChunk_calm (opened : 0 ≤ reader.file.fd) (chunks : List Chunk) :
    Drain.Calm ⟨reader.nextChunk, chunks⟩ := by
  simp only [nextChunk]
  split
  · exact ⟨opened, by simp⟩
  · exact ⟨opened, fun error => ⟨fun failed => exactLoop_calm opened _ _ error
      (Point.exact.inj failed), by simp⟩⟩

/-- Kernels that only split reads keep a drain free of errors. -/
theorem Drain.Calm.step {before after : Drain} (splits : Splits kernel content)
    (calm : before.Calm) (transition : Drain.Step kernel strerror before after) : after.Calm := by
  obtain ⟨opened, none⟩ := calm
  cases transition with
  | call transition =>
      cases transition with
      | @pread reader got answer answers =>
          refine ⟨opened, fun error => ⟨fun failed => ?_, by simp⟩⟩
          obtain ⟨data, rfl⟩ := splits.succeeds answers
          simp only [File.exactNext, File.retried, Point.exact.injEq] at failed
          split at failed
          · cases failed
          · exact exactLoop_calm opened _ _ error failed
      | @take reader read =>
          cases read with
          | error error => exact absurd rfl (none error).1
          | ok got =>
              simp only [takeChunk]
              split
              · exact ⟨opened, by simp⟩
              · exact ⟨opened, by simp⟩
  | next => exact nextChunk_calm opened _

def Drain.phase (drain : Drain) : Nat :=
  match drain.config.point with
  | .exact (.reading got) => drain.config.reader.buffer.size - got.length + 2
  | .exact (.returned _) => 1
  | .returned (.ok chunk) => if chunk.bytes = [] then 0 else drain.config.reader.buffer.size + 3
  | .returned (.error _) => 0

/-- The bytes of the window ahead, and what is left to do for the next chunk. -/
def Drain.rank (drain : Drain) : ℕ ×ₗ ℕ :=
  toLex (drain.config.reader.end - drain.config.reader.position, drain.phase)

/-- The loop has at most as many answers ahead of it as bytes are missing. -/
theorem phase_exactLoop {file : File} {got : List Byte} {chunks : List Chunk}
    (reader : DirectReader) :
    Drain.phase ⟨⟨reader, .exact (file.exactLoop reader.buffer.size got)⟩, chunks⟩ ≤
      reader.buffer.size - got.length + 2 := by
  simp only [File.exactLoop]
  split
  · split
    · simp only [Drain.phase]
      omega
    · exact Nat.le_refl _
  · simp only [Drain.phase]
    omega

/-- Every step of a drain brings its end nearer. -/
theorem Drain.rank_lt {before after : Drain} (splits : Splits kernel content)
    (inv : before.Inv content) (calm : before.Calm)
    (transition : Drain.Step kernel strerror before after) : after.rank < before.rank := by
  simp only [Drain.rank, Prod.Lex.toLex_lt_toLex]
  cases transition with
  | call transition =>
      cases transition with
      | @pread reader got answer answers =>
          refine .inr ⟨rfl, ?_⟩
          have short : got.length < reader.buffer.size := inv.yields.2.2.2
          obtain ⟨data, rfl⟩ := splits.succeeds answers
          simp only [File.exactNext, File.retried]
          split
          · simp only [Drain.phase]
            omega
          · next some =>
            have more := List.length_pos_iff.mpr some
            refine Nat.lt_of_le_of_lt (phase_exactLoop reader) ?_
            simp only [Drain.phase, List.length_append]
            omega
      | @take reader read =>
          cases read with
          | error error => exact absurd rfl (calm.2 error).1
          | ok got =>
              obtain ⟨fits, -, -, more, -, genuine⟩ := inv
              have length := fits.length_piece
              have room := fits.room
              rw [fits.takeChunk_eq more genuine]
              left
              dsimp only at more length room ⊢
              omega
  | @next reader chunk chunks some =>
      refine .inr ⟨?_, ?_⟩
      · simp only [nextChunk]
        split <;> rfl
      · have before : Drain.phase ⟨⟨reader, .returned (.ok chunk)⟩, chunks⟩ =
            reader.buffer.size + 3 := if_neg some
        rw [before]
        simp only [nextChunk]
        split
        · exact Nat.succ_pos _
        · exact Nat.lt_of_le_of_lt (phase_exactLoop reader) (by simp)

/-- A drain that has not ended has a step to take. -/
theorem Drain.Calm.progress {drain : Drain} (splits : Splits kernel content) (calm : drain.Calm)
    (running : ¬ drain.Drained) : ∃ next, Drain.Step kernel strerror drain next := by
  obtain ⟨⟨reader, point⟩, chunks⟩ := drain
  cases point with
  | exact point =>
      cases point with
      | reading got =>
          obtain ⟨answer, answers⟩ := splits.total (reader.position + got.length)
            (reader.buffer.size - got.length)
          exact ⟨_, .call (.pread answers)⟩
      | returned read => exact ⟨_, .call .take⟩
  | returned chunk =>
      cases chunk with
      | error error => exact absurd rfl (calm.2 error).2
      | ok chunk => exact ⟨_, .next fun none => running ⟨chunk, rfl, none⟩⟩

/-- The window of the reader stays as it is. -/
theorem Drain.Step.window {before after : Drain}
    (transition : Drain.Step kernel strerror before after) :
    after.config.reader.start = before.config.reader.start ∧
      after.config.reader.end = before.config.reader.end := by
  cases transition with
  | call transition =>
      cases transition with
      | pread => exact ⟨rfl, rfl⟩
      | @take reader read =>
          cases read with
          | error error => exact ⟨rfl, rfl⟩
          | ok got =>
              simp only [takeChunk]
              split <;> exact ⟨rfl, rfl⟩
  | next =>
      simp only [nextChunk]
      split <;> exact ⟨rfl, rfl⟩

/-- While no read fails, draining a reader ends, and completes its window. -/
theorem Fits.drains (strerror : Nat → String) (splits : Splits kernel content)
    (fits : Fits content reader) (opened : 0 ≤ reader.file.fd) {chunks : List Chunk}
    (started : reader.start ≤ reader.position) (within : reader.position ≤ reader.end)
    (yielded : chunks.flatMap (·.bytes) =
      window content reader.start (reader.position - reader.start)) :
    Inevitable (Drain.Step kernel strerror) (fun drain =>
      drain.Drained ∧ drain.bytes = window content reader.start (reader.end - reader.start))
      ⟨reader.nextChunk, chunks⟩ := by
  let holds (drain : Drain) : Prop := drain.Inv content ∧ drain.Calm ∧
    drain.config.reader.start = reader.start ∧ drain.config.reader.end = reader.end
  have initially : holds ⟨reader.nextChunk, chunks⟩ := by
    refine ⟨fits.nextChunk started within yielded, nextChunk_calm opened chunks, ?_⟩
    simp only [DirectReader.nextChunk]
    split <;> exact ⟨rfl, rfl⟩
  have preserved {before after : Drain} (both : holds before)
      (transition : Drain.Step kernel strerror before after) : holds after := by
    obtain ⟨inv, calm, start, finish⟩ := both
    obtain ⟨sameStart, sameEnd⟩ := transition.window
    exact ⟨inv.step splits.toTruthful transition, calm.step splits transition,
      sameStart.trans start, sameEnd.trans finish⟩
  have ends : Inevitable (Drain.Step kernel strerror) Drain.Drained ⟨reader.nextChunk, chunks⟩ :=
    .ofRank wellFounded_lt Drain.rank preserved
      (fun _ both running => both.2.1.progress splits running)
      (fun both _ transition => Drain.rank_lt splits both.1 both.2.1 transition) initially
  refine ends.weaken initially preserved fun drain both drained => ⟨drained, ?_⟩
  obtain ⟨inv, -, start, finish⟩ := both
  obtain ⟨chunk, point, empty⟩ := drained
  have yields := inv.yields
  rw [point] at yields
  obtain ⟨yielded, atEnd⟩ := yields
  rw [empty, List.append_nil] at yielded
  rw [yielded, atEnd empty, start, finish]

/-! ## A reader that opens -/

/-- The file opens at its path, and the calls on it succeed. -/
structure Opens (content : List Byte) (alignment : Nat) (path : String) (opening : Opening) :
    Prop where
  file : ∃ file, opening.file = .ok file ∧ 0 ≤ file.fd ∧ file.path = path ∧
    file.alignment = alignment
  stat : opening.stat = .ok content.length
  allocated : ∃ address, opening.allocated = .ok address

/-- A window inside the file, at a block of it, opens. -/
theorem Opens.window_opens {alignment offset length : Nat} {path : String} {opening : Opening}
    (opens : Opens content alignment path opening) (positive : 0 < alignment)
    (block : alignment ∣ offset) (inside : offset + length ≤ content.length)
    (bounded : content.length < 2 ^ 64) (strerror : Nat → String) :
    ∃ reader, DirectReader.open strerror opening offset length = .ok reader ∧
      Fits content reader ∧ 0 ≤ reader.file.fd ∧ reader.position = offset ∧
      reader.start = offset ∧ reader.end = offset + length := by
  obtain ⟨⟨file, opened, descriptor, -, aligned⟩, stat, address, allocated⟩ := opens
  have size : file.size strerror opening.stat = .ok content.length := by
    simp only [File.size, if_neg (Int.not_lt.mpr descriptor), stat]
  have grid : ¬ offset % file.alignment ≠ 0 := by
    rw [aligned]
    exact fun off => off (Nat.mod_eq_zero_of_dvd block)
  have before : ¬ content.length < offset := by omega
  have whole : min length (content.length - offset) = length := by omega
  have finish : (offset + length) % 2 ^ 64 = offset + length := Nat.mod_eq_of_lt (by omega)
  refine ⟨_, by simp only [DirectReader.open, opened, if_neg grid, size, if_neg before, whole,
    openWindow, allocated, finish]; rfl, ⟨?_, inside, ?_⟩, descriptor, rfl, rfl, rfl⟩
  · exact Nat.le_add_right _ _
  · dsimp only
    rw [aligned, roundUp_of_dvd positive (Nat.dvd_refl _)]
    exact positive

end DirectReader

end Dsio
