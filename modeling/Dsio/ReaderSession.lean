import Dsio.Reader

/-!
# A direct reader over its life

A `Session` is a reader between two calls: `next_chunk` is called any number of times,
also after an empty chunk or an error, and `reset` at any time. Whatever the kernel
splits, the chunks since the last reset are the blocks of the window, in order.
-/

namespace Dsio.DirectReader

open Transition Window

/-- `size()`. -/
def size (reader : DirectReader) : Nat := reader.end - reader.start

/-- A reader, and the chunks it has yielded since it was opened or reset. -/
structure Session where
  reader : DirectReader
  chunks : List Chunk := []

inductive Session.Step (kernel : Kernel) (strerror : Nat → String) : Session → Session → Prop where
  | chunk {before after chunks chunk}
      (call : Reaches (DirectReader.Step kernel strerror) before.nextChunk
        ⟨after, .returned (.ok chunk)⟩) :
      Step kernel strerror ⟨before, chunks⟩ ⟨after, chunks ++ [chunk]⟩
  | failed {before after chunks error}
      (call : Reaches (DirectReader.Step kernel strerror) before.nextChunk
        ⟨after, .returned (.error error)⟩) :
      Step kernel strerror ⟨before, chunks⟩ ⟨after, chunks⟩
  | reset {reader chunks} : Step kernel strerror ⟨reader, chunks⟩ ⟨reader.reset, []⟩

variable {content : List Byte} {reader opened : DirectReader} {kernel : Kernel}
variable {strerror : Nat → String}

/-! ## One call -/

/-- A call gives the piece at the position and moves past it, or fails and moves nothing. -/
def Calling (content : List Byte) (reader : DirectReader) (config : Config) : Prop :=
  match config.point with
  | .exact point => config.reader = reader ∧ reader.position < reader.end ∧
      point.Genuine content reader.position reader.buffer.size
  | .returned (.ok chunk) => chunk = reader.piece content ∧
      ∃ buffer, buffer.size = reader.buffer.size ∧ config.reader =
        { reader with buffer, position := reader.position + chunk.bytes.length }
  | .returned (.error _) => config.reader = reader

/-- A call of `next_chunk` begins at the reader's position. -/
theorem calling_nextChunk (content : List Byte) (reader : DirectReader) :
    Calling content reader reader.nextChunk := by
  simp only [nextChunk]
  split
  · next ended =>
    have nothing : reader.piece content = ⟨[], reader.position⟩ := by
      rw [piece, Nat.sub_eq_zero_of_le ended, Nat.min_zero, window_zero]
    exact ⟨nothing.symm, reader.buffer, rfl, rfl⟩
  · next more =>
    exact ⟨rfl, Nat.not_le.mp more,
      File.exactLoop_genuine (window_zero content _).symm (Nat.zero_le _)⟩

/-- Every step of the call reads on from there. -/
theorem Calling.step {before after : Config} (truthful : Truthful kernel content)
    (fits : Fits content reader) (calling : Calling content reader before)
    (transition : Step kernel strerror before after) : Calling content reader after := by
  cases transition with
  | pread answers =>
      obtain ⟨rfl, more, genuine⟩ := calling
      exact ⟨rfl, more, File.exactNext_genuine truthful genuine answers⟩
  | @take current read =>
      obtain ⟨same, more, genuine⟩ := calling
      have same : current = reader := same
      subst same
      cases read with
      | error error => rfl
      | ok got =>
          rw [fits.takeChunk_eq more genuine]
          exact ⟨rfl, current.buffer.write got, rfl, rfl⟩

/-- The invariant of the call holds in each of its states. -/
theorem calling_of_reaches {config : Config} (truthful : Truthful kernel content)
    (fits : Fits content reader) (call : Reaches (Step kernel strerror) reader.nextChunk config) :
    Calling content reader config :=
  call.preserves (fun calling transition => calling.step truthful fits transition)
    (calling_nextChunk content reader)

/-! ## Chunks that follow on each other -/

/-- Each chunk starts where the one before it ended. -/
def Chained : Nat → List Chunk → Nat → Prop
  | first, [], last => first = last
  | first, chunk :: rest, last =>
      chunk.offset = first ∧ Chained (first + chunk.bytes.length) rest last

/-- A chunk that begins at the end extends the chain. -/
theorem Chained.snoc {first last : Nat} {chunks : List Chunk} (chained : Chained first chunks last)
    {chunk : Chunk} (follows : chunk.offset = last) :
    Chained first (chunks ++ [chunk]) (last + chunk.bytes.length) := by
  induction chunks generalizing first with
  | nil =>
      cases chained
      exact ⟨follows, rfl⟩
  | cons _ rest ih => exact ⟨chained.1, ih chained.2⟩

/-- A chain ends as many bytes behind its beginning as its chunks have. -/
theorem Chained.last_eq {first last : Nat} {chunks : List Chunk}
    (chained : Chained first chunks last) :
    last = first + (chunks.map (·.bytes)).flatten.length := by
  induction chunks generalizing first with
  | nil =>
      cases chained
      rfl
  | cons chunk rest ih =>
      rw [ih chained.2, List.map_cons, List.flatten_cons, List.length_append, Nat.add_assoc]

/-- Chained chunks are a matter of their bytes. -/
theorem Chained.isPrefix {first last other : Nat} {chunks more : List Chunk}
    (chained : Chained first chunks last) (longer : Chained first more other)
    (bytes : chunks.map (·.bytes) <+: more.map (·.bytes)) : chunks <+: more := by
  induction chunks generalizing first more with
  | nil => exact List.nil_prefix
  | cons chunk rest ih =>
      cases more with
      | nil => simp at bytes
      | cons next more =>
          rw [List.map_cons, List.map_cons, List.cons_prefix_cons] at bytes
          obtain ⟨same, bytes⟩ := bytes
          obtain ⟨data, offset⟩ := chunk
          obtain ⟨nextData, nextOffset⟩ := next
          obtain ⟨start, chained⟩ := chained
          obtain ⟨nextStart, longer⟩ := longer
          dsimp only at same start nextStart chained longer
          subst same start nextStart
          exact List.cons_prefix_cons.mpr ⟨rfl, ih chained longer bytes⟩

/-! ## Sessions -/

/-- After any session the reader is the one that was opened, but for its position, and the
chunks are the blocks of the window. -/
structure Session.Inv (content : List Byte) (opened : DirectReader) (session : Session) :
    Prop where
  same : ∃ buffer position, buffer.size = opened.buffer.size ∧
    session.reader = { opened with buffer, position }
  chained : Chained opened.start session.chunks session.reader.position
  blocks : session.chunks.map (·.bytes) =
    cut (List.replicate session.chunks.length opened.buffer.size)
      (window content opened.start opened.size)

namespace Session.Inv

variable {session : Session}

/-- A session begins with no chunk. -/
theorem initial (content : List Byte) (fresh : opened.position = opened.start) :
    Session.Inv content opened ⟨opened, []⟩ where
  same := ⟨opened.buffer, opened.position, rfl, rfl⟩
  chained := fresh.symm
  blocks := rfl

/-- The reader keeps its window and its buffer. -/
theorem fits (inv : session.Inv content opened) (fits : Fits content opened) :
    Fits content session.reader := by
  obtain ⟨buffer, position, size, same⟩ := inv.same
  rw [same]
  refine ⟨fits.ordered, fits.inside, ?_⟩
  have room := fits.room
  dsimp only
  omega

/-- So many chunks have so many bytes, up to the end of the window. -/
theorem length_bytes (inv : session.Inv content opened) (fits : Fits content opened) :
    (session.chunks.map (·.bytes)).flatten.length =
      min (session.chunks.length * opened.buffer.size) opened.size := by
  have ordered := fits.ordered
  have inside := fits.inside
  have whole : (window content opened.start opened.size).length = opened.size :=
    length_window_of_inside (by simp only [size]; omega)
  rw [inv.blocks, flatten_cut, List.length_take, whole, List.sum_replicate_nat]

/-- The reader stands behind the chunks it has given. -/
theorem position_eq (inv : session.Inv content opened) (fits : Fits content opened) :
    session.reader.position =
      opened.start + min (session.chunks.length * opened.buffer.size) opened.size := by
  rw [inv.chained.last_eq, inv.length_bytes fits]

/-- The next piece is the next block of the window. -/
theorem piece_eq (inv : session.Inv content opened) (fits : Fits content opened) :
    (session.reader.piece content).bytes = ((window content opened.start opened.size).drop
      (session.chunks.length * opened.buffer.size)).take opened.buffer.size := by
  have position := inv.position_eq fits
  have ordered := fits.ordered
  obtain ⟨buffer, _, size, same⟩ := inv.same
  have finish : session.reader.end = opened.end := by rw [same]
  have block : session.reader.buffer.size = opened.buffer.size := by rw [same]; exact size
  rw [piece, drop_window, take_window, finish, block, position]
  rcases Nat.le_total opened.size (session.chunks.length * opened.buffer.size) with past | inside
  · have nothing : opened.end - (opened.start + opened.size) = 0 := by
      simp only [DirectReader.size]
      omega
    rw [Nat.min_eq_right past, nothing, Nat.sub_eq_zero_of_le past, Nat.min_zero, window_zero,
      window_zero]
  · have left : opened.end - (opened.start + session.chunks.length * opened.buffer.size) =
        opened.size - session.chunks.length * opened.buffer.size := by
      simp only [DirectReader.size]
      omega
    rw [Nat.min_eq_left inside, left]

/-- Every call and every reset keeps the invariant. -/
theorem step {before after : Session} (truthful : Truthful kernel content)
    (fits : Fits content opened) (inv : before.Inv content opened)
    (transition : Session.Step kernel strerror before after) : after.Inv content opened := by
  cases transition with
  | @chunk reader after chunks chunk call =>
      obtain ⟨given, buffer, kept, moved⟩ := calling_of_reaches truthful (inv.fits fits) call
      have piece := inv.piece_eq fits
      obtain ⟨⟨_, _, size, same⟩, chained, blocks⟩ := inv
      dsimp only at same chained blocks moved piece
      refine ⟨⟨buffer, reader.position + chunk.bytes.length, ?_, ?_⟩, ?_, ?_⟩
      · rw [kept, ← size]
        dsimp only
        rw [same]
      · dsimp only
        rw [moved, same]
      · dsimp only
        rw [moved]
        exact chained.snoc (by rw [given]; rfl)
      · rw [List.map_append, List.length_append, List.map_singleton, List.length_singleton,
          ← List.replicate_append_replicate, cut_append, blocks, given, piece,
          List.sum_replicate_nat]
        rfl
  | @failed reader after chunks error call =>
      have unmoved : after = reader := calling_of_reaches truthful (inv.fits fits) call
      exact unmoved ▸ inv
  | @reset reader chunks =>
      obtain ⟨⟨buffer, position, size, same⟩, -, -⟩ := inv
      dsimp only at same
      refine ⟨⟨buffer, opened.start, size, ?_⟩, ?_, rfl⟩
      · dsimp only [DirectReader.reset]
        rw [same]
      · dsimp only [DirectReader.reset]
        rw [same]
        rfl

/-- The invariant holds in every state of a session. -/
theorem of_reaches (truthful : Truthful kernel content) (fits : Fits content opened)
    (fresh : opened.position = opened.start)
    (run : Reaches (Session.Step kernel strerror) ⟨opened, []⟩ session) :
    session.Inv content opened :=
  run.preserves (fun inv transition => inv.step truthful fits transition) (.initial content fresh)

end Session.Inv

/-! ## What a session covers -/

/-- The chunks of a session are the window from `start` to `finish`, in blocks. -/
structure Session.Covers (content : List Byte) (block start finish : Nat) (session : Session) :
    Prop where
  /-- The first chunk starts the window, each other one where the one before it ended, and
  the position is where the last one ended. -/
  chained : Chained start session.chunks session.reader.position
  yielded : (session.chunks.map (·.bytes)).flatten =
    window content start (session.reader.position - start)
  /-- Of the chunks with something in them, every one but the last is exactly one block. -/
  blocks : ∀ before chunk next after, session.chunks = before ++ chunk :: next :: after →
    next.bytes ≠ [] → chunk.bytes.length = block
  /-- Finitely many chunks complete the window. -/
  completes : finish - start ≤ session.chunks.length * block → session.reader.position = finish
  /-- An empty chunk comes at the end of the window, and nothing comes after it. -/
  ends : ∀ before chunk after, session.chunks = before ++ chunk :: after → chunk.bytes = [] →
    session.reader.position = finish ∧ ∀ later ∈ after, later.bytes = []

namespace Session.Inv

variable {session : Session}

/-- Each chunk is the block of the window behind those before it. -/
theorem bytes_eq (inv : session.Inv content opened) (before : List Chunk) {after : List Chunk}
    {chunk : Chunk} (split : session.chunks = before ++ chunk :: after) :
    chunk.bytes = ((window content opened.start opened.size).drop
      (before.length * opened.buffer.size)).take opened.buffer.size := by
  have blocks := inv.blocks
  rw [split, List.map_append, List.map_cons] at blocks
  rw [eq_of_cut_replicate blocks.symm, List.length_map]

/-- The chunks of a session cover the front of the window. -/
theorem covers (inv : session.Inv content opened) (fits : Fits content opened) :
    session.Covers content opened.buffer.size opened.start opened.end := by
  have room := fits.room
  have ordered := fits.ordered
  have position := inv.position_eq fits
  have whole : (window content opened.start opened.size).length = opened.size :=
    length_window_of_inside (by have inside := fits.inside; simp only [size]; omega)
  refine ⟨inv.chained, ?_, ?_, fun enough => ?_, ?_⟩
  · rw [inv.blocks, flatten_cut, List.sum_replicate_nat, take_window, position,
      Nat.add_sub_cancel_left]
  · intro before chunk next after split some
    have behind := inv.bytes_eq (before ++ [chunk]) (by simpa using split)
    rw [List.length_append, List.length_singleton, Nat.succ_mul] at behind
    have more := List.length_pos_iff.mpr some
    rw [behind, List.length_take, List.length_drop, whole] at more
    rw [inv.bytes_eq before split, List.length_take, List.length_drop, whole]
    omega
  · have all : opened.size ≤ session.chunks.length * opened.buffer.size := enough
    rw [position, Nat.min_eq_right all, size]
    omega
  · intro before chunk after split empty
    have beyond : opened.size ≤ before.length * opened.buffer.size := by
      have length := congrArg List.length (inv.bytes_eq before split)
      rw [empty, List.length_take, List.length_drop, whole, List.length_nil] at length
      omega
    have monotone {count : Nat} (more : before.length ≤ count) :
        opened.size ≤ count * opened.buffer.size :=
      Nat.le_trans beyond (Nat.mul_le_mul_right _ more)
    refine ⟨?_, fun later member => ?_⟩
    · have counted : before.length ≤ session.chunks.length := by
        rw [split, List.length_append]
        omega
      rw [position, Nat.min_eq_right (monotone counted)]
      simp only [size]
      omega
    · obtain ⟨between, rest, rfl⟩ := List.append_of_mem member
      have behind := inv.bytes_eq (before ++ chunk :: between) (by simpa using split)
      have past : opened.size ≤ (before ++ chunk :: between).length * opened.buffer.size :=
        monotone (by rw [List.length_append]; omega)
      rw [behind, List.drop_eq_nil_of_le (by rw [whole]; exact past), List.take_nil]

/-- Sessions of one reader yield the same chunks, as far as they go. -/
theorem isPrefix {other : Session} (inv : session.Inv content opened)
    (longer : other.Inv content opened) (shorter : session.chunks.length ≤ other.chunks.length) :
    session.chunks <+: other.chunks := by
  refine inv.chained.isPrefix longer.chained ?_
  rw [inv.blocks, longer.blocks]
  exact cut_replicate_isPrefix shorter _ _

end Session.Inv

/-- What `open` accepts is clamped to the file. -/
theorem Opens.accepted {alignment offset length : Nat} {path : String} {opening : Opening}
    (opens : Opens content alignment path opening) (positive : 0 < alignment)
    (bounded : content.length < 2 ^ 63)
    (accepted : DirectReader.open strerror opening offset length = .ok reader) :
    offset ≤ content.length ∧ Fits content reader ∧ 0 ≤ reader.file.fd ∧
      reader.buffer.size = alignment ∧ reader.position = offset ∧ reader.start = offset ∧
      reader.end = offset + min length (content.length - offset) := by
  obtain ⟨⟨file, opened, descriptor, -, aligned⟩, stat, address, allocated⟩ := opens
  have size : file.size strerror opening.stat = .ok content.length := by
    simp only [File.size, if_neg (Int.not_lt.mpr descriptor), stat]
  simp only [DirectReader.open, opened, size, openWindow, allocated] at accepted
  split at accepted
  · cases accepted
  · split at accepted
    · cases accepted
    · next inside =>
      have within : offset ≤ content.length := Nat.not_lt.mp inside
      have finish : (offset + min length (content.length - offset)) % 2 ^ 64 =
          offset + min length (content.length - offset) := Nat.mod_eq_of_lt (by omega)
      have block : roundUp file.alignment file.alignment = alignment := by
        rw [aligned, roundUp_of_dvd positive (Nat.dvd_refl _)]
      rw [finish] at accepted
      cases accepted
      refine ⟨within, ⟨?_, ?_, ?_⟩, descriptor, block, rfl, rfl, rfl⟩
      · exact Nat.le_add_right _ _
      · dsimp only
        omega
      · dsimp only
        rw [block]
        exact positive

/-- A window that `open` accepts is covered exactly, however the kernel splits its reads:
in every session the chunks are the blocks of the window, from any point on `next_chunk`
completes the window, and sessions, as those before and after a `reset`, agree on the
chunks they both have. -/
theorem covers_window (strerror : Nat → String) {alignment offset length : Nat}
    {path : String} {opening : Opening} (truthful : Truthful kernel content)
    (opens : Opens content alignment path opening) (positive : 0 < alignment)
    (bounded : content.length < 2 ^ 63)
    (accepted : DirectReader.open strerror opening offset length = .ok reader) :
    offset + min length (content.length - offset) < 2 ^ 64 ∧
    reader.start = offset ∧
    reader.start + reader.size = min (offset + length) content.length ∧
    (∀ session, Reaches (Session.Step kernel strerror) ⟨reader, []⟩ session →
      session.Covers content alignment offset (min (offset + length) content.length) ∧
      (Splits kernel content → Inevitable (Drain.Step kernel strerror)
        (fun drain => drain.Drained ∧ drain.bytes =
          window content offset (min (offset + length) content.length - offset))
        ⟨session.reader.nextChunk, session.chunks⟩)) ∧
    (∀ session other, Reaches (Session.Step kernel strerror) ⟨reader, []⟩ session →
      Reaches (Session.Step kernel strerror) ⟨reader, []⟩ other →
      session.chunks.length ≤ other.chunks.length → session.chunks <+: other.chunks) := by
  obtain ⟨within, fits, descriptor, block, fresh, start, finish⟩ :=
    opens.accepted positive bounded accepted
  have ended : reader.end = min (offset + length) content.length := by omega
  have inv {session : Session} (run : Reaches (Session.Step kernel strerror) ⟨reader, []⟩ session) :
      session.Inv content reader := .of_reaches truthful fits (fresh.trans start.symm) run
  refine ⟨by omega, start, ?_, fun session run => ⟨?_, fun splits => ?_⟩,
    fun session other run longer => (inv run).isPrefix (inv longer)⟩
  · simp only [size]
    omega
  · have covers := (inv run).covers fits
    rwa [block, start, ended] at covers
  · have covers := (inv run).covers fits
    have position := (inv run).position_eq fits
    obtain ⟨buffer, current, -, same⟩ := (inv run).same
    have sameStart : session.reader.start = reader.start := by rw [same]
    have sameEnd : session.reader.end = reader.end := by rw [same]
    have opened : 0 ≤ session.reader.file.fd := by rw [same]; exact descriptor
    have drains := @Fits.drains _ _ _ strerror splits ((inv run).fits fits) opened session.chunks
      (by omega) (by simp only [size] at position; omega)
      (by rw [List.flatMap_def, sameStart]; exact covers.yielded)
    rwa [sameStart, sameEnd, start, ended] at drains

/-- A kernel that gives a byte at a time. -/
def singleBytes (content : List Byte) : Kernel :=
  fun offset length answer => answer = .ok (window content offset (min 1 length))

/-- A kernel that answers with one byte at a time splits reads. -/
theorem singleBytes_splits (content : List Byte) : Splits (singleBytes content) content where
  data := by
    rintro offset length data ⟨⟩
    refine ⟨?_, by rw [length_window]; omega⟩
    rw [length_window, window_min_available]
  ends := by
    intro offset length answers
    have none := congrArg List.length (Except.ok.inj answers)
    rw [length_window, List.length_nil] at none
    omega
  total := fun _ _ => ⟨_, rfl⟩
  succeeds := fun answers => ⟨_, answers⟩

/-- Seven bytes in blocks of two; the window asked for is longer than the file. -/
theorem sevenBytes_covered :
    ∃ reader, DirectReader.open (fun _ => "") ⟨.ok ⟨3, "seven", 2⟩, .ok 7, .ok 0⟩ 2 (2 ^ 64 - 1) =
      .ok reader ∧ reader.start + reader.size = 7 ∧
      Inevitable (Drain.Step (singleBytes [1, 2, 3, 4, 5, 6, 7]) fun _ => "")
        (fun drain => drain.Drained ∧ drain.bytes = [3, 4, 5, 6, 7]) ⟨reader.nextChunk, []⟩ := by
  have splits := singleBytes_splits [1, 2, 3, 4, 5, 6, 7]
  obtain ⟨-, -, whole, sessions, -⟩ := covers_window (fun _ => "") splits.toTruthful
    (⟨⟨_, rfl, by decide, rfl, rfl⟩, rfl, _, rfl⟩ :
      Opens [1, 2, 3, 4, 5, 6, 7] 2 "seven" ⟨.ok ⟨3, "seven", 2⟩, .ok 7, .ok 0⟩)
    (by decide) (by decide) (rfl : DirectReader.open (fun _ => "") _ 2 (2 ^ 64 - 1) = .ok _)
  exact ⟨_, rfl, whole, (sessions _ .refl).2 splits⟩

end Dsio.DirectReader
