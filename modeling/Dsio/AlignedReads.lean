import Dsio.FileWriting
import Dsio.Library.Run
import Dsio.Reader
import Dsio.Sink

/-!
# Alignment of direct reads

`pread_exact`, `read_into` and a `DirectReader` as clients of one file, with any answers to
their system calls. A read that is answered with a part of a block is continued behind it:
`aligned_iff_even` says that this is the one way to a misaligned read.
-/

namespace Dsio

open Transition

/-- What reads from the file. -/
inductive Activity where
  | exact (offset size : Nat) (point : File.ExactPoint)
  | into (sink : Sink) (offset : Nat) (point : Sink.Point)
  | reader (config : DirectReader.Config)

/-- A client, and how many bytes its reads have returned so far. -/
structure Client where
  activity : Activity
  results : List Nat := []

namespace Client

/-- The call of `pread_exact` a client is in: its offset, its length and where it stands. -/
def call (client : Client) : Option (Nat × Nat × File.ExactPoint) :=
  match client.activity with
  | .exact offset size point => some (offset, size, point)
  | .into _ offset (.exact size point) => some (offset, size, point)
  | .reader ⟨reader, .exact point⟩ => some (reader.position, reader.buffer.size, point)
  | _ => none

/-- The system call a client is in: its offset and its length. -/
def issues (client : Client) : Option (Nat × Nat) :=
  match client.call with
  | some (offset, size, .reading got) =>
      some (File.callOffset offset got.length, size - got.length)
  | _ => none

/-- The system call meets the requirement of the direct modes. -/
def Aligned (file : File) (client : Client) : Prop :=
  ∀ offset length, client.issues = some (offset, length) →
    file.alignment ∣ offset ∧ file.alignment ∣ length

/-- Every read has returned whole blocks, or nothing. -/
def Even (file : File) (client : Client) : Prop :=
  ∀ bytes ∈ client.results, file.alignment ∣ bytes

/-- What a system call for `length` bytes may answer: an errno, or at most so many. -/
def Answers (length : Nat) : Except Nat (List Byte) → Prop
  | .ok data => data.length ≤ length
  | .error _ => True

/-- The results after an answer. -/
def record (results : List Nat) : Except Nat (List Byte) → List Nat
  | .ok data => results ++ [data.length]
  | .error _ => results

/-- The calls the requirement is about: at multiples of the alignment, of a multiple of it,
and the readers that `open` gives. -/
inductive Starts (strerror : Nat → String) (file : File) : Client → Prop where
  | exact {offset size} (grid : file.alignment ∣ offset) (whole : file.alignment ∣ size) :
      Starts strerror file ⟨.exact offset size (file.exactLoop size []), []⟩
  | into {sink offset point} (grid : file.alignment ∣ offset)
      (begun : Sink.readInto file sink = some point) :
      Starts strerror file ⟨.into sink offset point, []⟩
  | reader {opening offset length reader} (same : opening.file = .ok file)
      (opened : DirectReader.open strerror opening offset length = .ok reader) :
      Starts strerror file ⟨.reader reader.nextChunk, []⟩
  | whole {opening reader} (same : opening.file = .ok file)
      (opened : DirectReader.openWhole strerror opening = .ok reader) :
      Starts strerror file ⟨.reader reader.nextChunk, []⟩

/-- An answer to a system call, and what the clients do between two of them; a reader is
called again, or reset, whatever a call returned. -/
inductive Step (strerror : Nat → String) (file : File) : Client → Client → Prop where
  | exact {offset size got answer results} (answers : Answers (size - got.length) answer) :
      Step strerror file ⟨.exact offset size (.reading got), results⟩
        ⟨.exact offset size (file.exactNext strerror size got answer), record results answer⟩
  | into {sink offset size got answer results} (answers : Answers (size - got.length) answer) :
      Step strerror file ⟨.into sink offset (.exact size (.reading got)), results⟩
        ⟨.into sink offset (.exact size (file.exactNext strerror size got answer)),
          record results answer⟩
  | commit {sink offset size got results} :
      Step strerror file ⟨.into sink offset (.exact size (.returned got)), results⟩
        ⟨.into sink offset (.returned (sink.committed got)), results⟩
  | reader {reader got answer results}
      (answers : Answers (reader.buffer.size - got.length) answer) :
      Step strerror file ⟨.reader ⟨reader, .exact (.reading got)⟩, results⟩
        ⟨.reader ⟨reader, .exact (reader.file.exactNext strerror reader.buffer.size got answer)⟩,
          record results answer⟩
  | take {reader read results} :
      Step strerror file ⟨.reader ⟨reader, .exact (.returned read)⟩, results⟩
        ⟨.reader (reader.takeChunk read), results⟩
  | next {reader got results} :
      Step strerror file ⟨.reader ⟨reader, .returned got⟩, results⟩
        ⟨.reader reader.nextChunk, results⟩
  | reset {reader got results} :
      Step strerror file ⟨.reader ⟨reader, .returned got⟩, results⟩
        ⟨.reader reader.reset.nextChunk, results⟩

/-! ## Whole blocks -/

/-- A call for `size` bytes that has got whole blocks so far. -/
def Whole (alignment size : Nat) : File.ExactPoint → Prop
  | .reading got => alignment ∣ got.length ∧ got.length < size
  | .returned (.ok got) => alignment ∣ got.length ∧ got.length ≤ size
  | .returned (.error _) => True

variable {strerror : Nat → String} {file : File} {client before after : Client}
variable {offset size : Nat} {got : List Byte} {answer : Except Nat (List Byte)}

/-- The loop stops or reads on at whole blocks. -/
theorem whole_exactLoop (blocks : file.alignment ∣ got.length) (fits : got.length ≤ size) :
    Whole file.alignment size (file.exactLoop size got) := by
  simp only [File.exactLoop]
  split
  · next short =>
    split
    · trivial
    · exact ⟨blocks, short⟩
  · exact ⟨blocks, fits⟩

/-- An answer is even when its data are whole blocks. -/
theorem even_record {results : List Nat} {activity : Activity} :
    Even file ⟨activity, record results answer⟩ ↔
      Even file ⟨activity, results⟩ ∧ ∀ data, answer = .ok data → file.alignment ∣ data.length := by
  cases answer with
  | error code => simp [Even, record]
  | ok data => simp [Even, record, or_imp, forall_and]

/-- After an answer of whole blocks the call has got whole blocks. -/
theorem whole_exactNext (holds : Whole file.alignment size (.reading got))
    (answers : Answers (size - got.length) answer)
    (even : ∀ data, answer = .ok data → file.alignment ∣ data.length) :
    Whole file.alignment size (file.exactNext strerror size got answer) := by
  obtain ⟨blocks, short⟩ := holds
  cases answer with
  | error code =>
      by_cases interrupted : code = eintr
      · simp only [File.exactNext, File.retried, if_pos interrupted]
        exact ⟨blocks, short⟩
      · simp only [File.exactNext, File.retried, if_neg interrupted]
        trivial
  | ok data =>
      have fits : data.length ≤ size - got.length := answers
      simp only [File.exactNext, File.retried]
      split
      · exact ⟨blocks, Nat.le_of_lt short⟩
      · refine whole_exactLoop ?_ (by rw [List.length_append]; omega)
        rw [List.length_append]
        exact Nat.dvd_add blocks (even data rfl)

/-- A part of a block is continued behind it. -/
theorem exactNext_uneven {data : List Byte} (opened : 0 ≤ file.fd)
    (blocks : file.alignment ∣ size) (holds : Whole file.alignment size (.reading got))
    (answers : Answers (size - got.length) (.ok data)) (uneven : ¬ file.alignment ∣ data.length) :
    file.exactNext strerror size got (.ok data) = .reading (got ++ data) := by
  obtain ⟨whole, short⟩ := holds
  have fits : data.length ≤ size - got.length := answers
  have some : data ≠ [] := by
    rintro rfl
    exact uneven (Nat.dvd_zero _)
  have ends : got.length + data.length ≠ size := by
    intro full
    exact uneven ((Nat.dvd_add_right whole).mp (full ▸ blocks))
  have more : (got ++ data).length < size := by
    rw [List.length_append]
    omega
  simp only [File.exactNext, File.retried, if_neg some, File.exactLoop, if_pos more,
    if_neg (Int.not_lt.mpr opened)]

/-! ## Aligned calls -/

/-- A call at a multiple of the alignment, of a multiple of it, that has got whole blocks. -/
structure OnGrid (file : File) (offset size : Nat) (point : File.ExactPoint) : Prop where
  grid : file.alignment ∣ offset
  blocks : file.alignment ∣ size
  whole : Whole file.alignment size point

/-- A call on the grid of blocks makes aligned system calls. -/
theorem aligned_of_onGrid (power : file.alignment ∣ 2 ^ 64)
    (onGrid : ∀ offset size point, client.call = some (offset, size, point) →
      OnGrid file offset size point) : client.Aligned file := by
  intro offset length issued
  simp only [issues] at issued
  split at issued
  · next start size got found =>
    obtain ⟨grid, blocks, whole, -⟩ := onGrid _ _ _ found
    cases issued
    exact ⟨(Nat.dvd_mod_iff power).mpr (Nat.dvd_add grid whole), Nat.dvd_sub blocks whole⟩
  · cases issued

/-- Behind a part of a block a system call is misaligned. -/
theorem not_aligned (power : file.alignment ∣ 2 ^ 64)
    (found : client.call = some (offset, size, .reading got)) (grid : file.alignment ∣ offset)
    (uneven : ¬ file.alignment ∣ got.length) : ¬ client.Aligned file := by
  intro aligned
  have issued : client.issues = some (File.callOffset offset got.length, size - got.length) := by
    simp only [issues, found]
  have multiple := (Nat.dvd_mod_iff power).mp (aligned _ _ issued).1
  exact uneven ((Nat.dvd_add_right grid).mp multiple)

/-- A call of whole blocks at a block begins on the grid. -/
theorem OnGrid.exactLoop (grid : file.alignment ∣ offset) (blocks : file.alignment ∣ size) :
    OnGrid file offset size (file.exactLoop size []) :=
  ⟨grid, blocks, whole_exactLoop (Nat.dvd_zero _) (Nat.zero_le _)⟩

/-- An even answer stays on the grid. -/
theorem OnGrid.exactNext (onGrid : OnGrid file offset size (.reading got))
    (answers : Answers (size - got.length) answer)
    (even : ∀ data, answer = .ok data → file.alignment ∣ data.length) :
    OnGrid file offset size (file.exactNext strerror size got answer) :=
  ⟨onGrid.grid, onGrid.blocks, whole_exactNext onGrid.whole answers even⟩

/-- After the first answer of a part of a block the call stands inside one. -/
theorem OnGrid.continues (onGrid : OnGrid file offset size (.reading got)) (opened : 0 ≤ file.fd)
    (answers : Answers (size - got.length) answer) {activity : Activity} {results : List Nat}
    (sound : Even file ⟨activity, results⟩)
    (uneven : ¬ Even file ⟨activity, record results answer⟩) :
    ∃ more, file.exactNext strerror size got answer = .reading more ∧
      ¬ file.alignment ∣ more.length := by
  have odd : ∃ data, answer = .ok data ∧ ¬ file.alignment ∣ data.length := by
    by_contra none
    push Not at none
    exact uneven (even_record.mpr ⟨sound, none⟩)
  obtain ⟨data, rfl, part⟩ := odd
  refine ⟨got ++ data, exactNext_uneven opened onGrid.blocks onGrid.whole answers part, ?_⟩
  rw [List.length_append]
  exact fun whole => part ((Nat.dvd_add_right onGrid.whole.1).mp whole)

/-! ## Clients -/

/-- A reader of this file that starts a block, and stands at one as long as it has to read. -/
structure Reads (file : File) (reader : DirectReader) : Prop where
  same : reader.file = file
  block : reader.buffer.size = file.alignment
  start : file.alignment ∣ reader.start
  position : reader.position < reader.end → file.alignment ∣ reader.position

structure Inv (file : File) (client : Client) : Prop where
  onGrid : ∀ offset size point, client.call = some (offset, size, point) →
    OnGrid file offset size point
  reads : ∀ config, client.activity = .reader config → Reads file config.reader

variable {reader : DirectReader}

/-- A chunk begins on the grid. -/
theorem Reads.nextChunk (reads : Reads file reader) (results : List Nat) :
    Inv file ⟨.reader reader.nextChunk, results⟩ := by
  simp only [DirectReader.nextChunk]
  split
  · exact ⟨by rintro _ _ _ ⟨⟩, by rintro _ ⟨⟩; exact reads⟩
  · next more =>
    refine ⟨?_, by rintro _ ⟨⟩; exact reads⟩
    rintro _ _ _ ⟨⟩
    rw [reads.same]
    exact .exactLoop (reads.position (Nat.not_le.mp more)) (reads.block ▸ Nat.dvd_refl _)

/-- A reset goes back to the grid. -/
theorem Reads.reset (reads : Reads file reader) : Reads file reader.reset :=
  ⟨reads.same, reads.block, reads.start, fun _ => reads.start⟩

/-- A chunk is a block, or the rest of the window. -/
theorem Reads.takeChunk (reads : Reads file reader) {read : Outcome (List Byte)}
    (onGrid : OnGrid file reader.position reader.buffer.size (.returned read))
    (results : List Nat) : Inv file ⟨.reader (reader.takeChunk read), results⟩ := by
  cases read with
  | error error => exact ⟨by rintro _ _ _ ⟨⟩, by rintro _ ⟨⟩; exact reads⟩
  | ok got =>
      obtain ⟨blocks, -⟩ := onGrid.whole
      simp only [DirectReader.takeChunk]
      split
      · exact ⟨by rintro _ _ _ ⟨⟩, by rintro _ ⟨⟩; exact ⟨reads.same, reads.block, reads.start,
          reads.position⟩⟩
      · refine ⟨by rintro _ _ _ ⟨⟩, ?_⟩
        rintro _ ⟨⟩
        refine ⟨reads.same, reads.block, reads.start, fun more => ?_⟩
        dsimp only at more ⊢
        have whole : min got.length (reader.end - reader.position) = got.length := by omega
        rw [whole]
        exact Nat.dvd_add onGrid.grid blocks

/-- The readers that `open` gives stand at a block. -/
theorem Reads.openWindow (positive : 0 < file.alignment) {allocated : Except String Nat}
    {length : Nat} (grid : file.alignment ∣ offset)
    (opened : DirectReader.openWindow allocated file offset length = .ok reader) :
    Reads file reader := by
  cases allocated with
  | error message => cases opened
  | ok address =>
      cases opened
      exact ⟨rfl, roundUp_of_dvd positive (Nat.dvd_refl _), grid, fun _ => grid⟩

/-- The calls the requirement is about begin on the grid. -/
theorem Starts.inv (positive : 0 < file.alignment) (starts : Starts strerror file client) :
    Inv file client := by
  cases starts with
  | exact grid whole =>
      refine ⟨?_, by rintro _ ⟨⟩⟩
      rintro _ _ _ ⟨⟩
      exact .exactLoop grid whole
  | @into sink offset point grid begun =>
      refine ⟨?_, by rintro _ ⟨⟩⟩
      cases point with
      | returned => rintro _ _ _ ⟨⟩
      | exact aligned point =>
          rintro _ _ _ ⟨⟩
          obtain ⟨rfl, -, rfl⟩ := Sink.readInto_exact begun
          exact .exactLoop grid (Nat.dvd_sub_mod _)
  | @reader opening offset length reader same opened =>
      simp only [DirectReader.open, same] at opened
      split at opened
      · cases opened
      · next grid =>
        split at opened
        · cases opened
        · split at opened
          · cases opened
          · have start : file.alignment ∣ offset := Nat.dvd_of_mod_eq_zero (not_not.mp grid)
            exact (Reads.openWindow positive start opened).nextChunk []
  | @whole opening reader same opened =>
      simp only [DirectReader.openWhole, same] at opened
      split at opened
      · cases opened
      · exact (Reads.openWindow positive (Nat.dvd_zero _) opened).nextChunk []

/-- Answers of whole blocks keep a client on the grid. -/
theorem Inv.step (inv : Inv file before) (transition : Step strerror file before after)
    (even : Even file after) : Inv file after := by
  obtain ⟨onGrid, reads⟩ := inv
  cases transition with
  | exact answers =>
      refine ⟨?_, by rintro _ ⟨⟩⟩
      rintro _ _ _ ⟨⟩
      exact (onGrid _ _ _ rfl).exactNext answers (even_record.mp even).2
  | into answers =>
      refine ⟨?_, by rintro _ ⟨⟩⟩
      rintro _ _ _ ⟨⟩
      exact (onGrid _ _ _ rfl).exactNext answers (even_record.mp even).2
  | commit => exact ⟨by rintro _ _ _ ⟨⟩, by rintro _ ⟨⟩⟩
  | @reader reader got answer results answers =>
      have reads := reads _ rfl
      refine ⟨?_, by rintro _ ⟨⟩; exact reads⟩
      rintro _ _ _ ⟨⟩
      rw [reads.same]
      exact (onGrid _ _ _ rfl).exactNext answers (even_record.mp even).2
  | take => exact (reads _ rfl).takeChunk (onGrid _ _ _ rfl) _
  | next => exact (reads _ rfl).nextChunk _
  | reset => exact (reads _ rfl).reset.nextChunk _

/-- Any other answer leads to a misaligned system call at once. -/
theorem Inv.broken (opened : 0 ≤ file.fd) (power : file.alignment ∣ 2 ^ 64)
    (inv : Inv file before) (transition : Step strerror file before after)
    (sound : Even file before) (uneven : ¬ Even file after) : ¬ after.Aligned file := by
  obtain ⟨onGrid, reads⟩ := inv
  cases transition with
  | exact answers =>
      have holds := onGrid _ _ _ rfl
      obtain ⟨more, continues, part⟩ := holds.continues opened answers sound uneven
      rw [continues]
      exact not_aligned power rfl holds.grid part
  | into answers =>
      have holds := onGrid _ _ _ rfl
      obtain ⟨more, continues, part⟩ := holds.continues opened answers sound uneven
      rw [continues]
      exact not_aligned power rfl holds.grid part
  | commit => exact absurd sound uneven
  | reader answers =>
      have holds := onGrid _ _ _ rfl
      obtain ⟨more, continues, part⟩ := holds.continues opened answers sound uneven
      rw [(reads _ rfl).same, continues]
      exact not_aligned power rfl holds.grid part
  | take => exact absurd sound uneven
  | next => exact absurd sound uneven
  | reset => exact absurd sound uneven

/-- Every system call of a run is aligned exactly when no read has returned a part of a
block. -/
theorem aligned_iff_even (opened : 0 ≤ file.fd) (positive : 0 < file.alignment)
    (power : file.alignment ∣ 2 ^ 64) {start : Client} {passed : List Client}
    (starts : Starts strerror file start) (run : Run (Step strerror file) start passed) :
    (∀ client ∈ start :: passed, client.Aligned file) ↔
      ∀ client ∈ start :: passed, client.Even file := by
  have fresh : Even file start := by
    cases starts <;> simp [Even]
  refine run.always_iff_always (starts.inv positive) fresh
    (fun inv => aligned_of_onGrid power inv.onGrid)
    (fun inv transition even => inv.step transition even)
    (fun inv sound transition uneven => inv.broken opened power transition sound uneven)

/-- A file with blocks of two bytes. -/
def pairsFile : File := ⟨3, "pairs", 2⟩

/-- `pread_exact` of two blocks at the third one. -/
def pairsStart : Client := ⟨.exact 4 4 (.reading []), []⟩

/-- A short read that returned one of the blocks. -/
def pairsHalf : Client := ⟨.exact 4 4 (.reading [1, 2]), [2]⟩

def pairsRead : Client := ⟨.exact 4 4 (.returned (.ok [1, 2, 3, 4])), [2, 2]⟩

/-- Two answers of a block each. -/
theorem pairs_runs : Run (Step (fun _ => "") pairsFile) pairsStart [pairsHalf, pairsRead] := by
  have half : Step (fun _ => "") pairsFile pairsStart pairsHalf :=
    @Step.exact (fun _ => "") pairsFile 4 4 [] (.ok [1, 2]) [] (by decide : 2 ≤ 4)
  have whole : Step (fun _ => "") pairsFile pairsHalf pairsRead :=
    @Step.exact (fun _ => "") pairsFile 4 4 [1, 2] (.ok [3, 4]) [2] (by decide : 2 ≤ 2)
  exact List.isChain_cons_cons.mpr ⟨half, List.isChain_pair.mpr whole⟩

/-- The rest is asked for at the fourth block. -/
theorem pairs_aligned : pairsHalf.issues = some (6, 2) ∧
    ∀ client ∈ [pairsStart, pairsHalf, pairsRead], client.Aligned pairsFile := by
  have starts : Starts (fun _ => "") pairsFile pairsStart :=
    .exact (by decide : 2 ∣ 4) (by decide : 2 ∣ 4)
  refine ⟨rfl, (aligned_iff_even (by decide) (by decide) (by decide) starts pairs_runs).mpr ?_⟩
  simp [Even, pairsStart, pairsHalf, pairsRead, pairsFile]

/-- A file of three bytes. -/
def threeByteFile : File := ⟨3, "three", 512⟩

/-- The reader of the whole file. -/
def threeByteReader : DirectReader := ⟨threeByteFile, ⟨0, 512, []⟩, 0, 3, 0⟩

def threeByteStart : Client := ⟨.reader threeByteReader.nextChunk, []⟩

/-- The file has ended after three of the 512 bytes asked for. -/
def threeByteTail : Client := ⟨.reader ⟨threeByteReader, .exact (.reading [1, 2, 3])⟩, [3]⟩

/-- The reader is one that `open` gives. -/
theorem threeByte_starts : Starts (fun _ => "") threeByteFile threeByteStart :=
  .whole (rfl : (⟨.ok threeByteFile, .ok 3, .ok 0⟩ : DirectReader.Opening).file = _) rfl

/-- The first read returns three bytes. -/
theorem threeByte_runs : Run (Step (fun _ => "") threeByteFile) threeByteStart [threeByteTail] := by
  have answered : Step (fun _ => "") threeByteFile threeByteStart threeByteTail :=
    @Step.reader (fun _ => "") threeByteFile threeByteReader [] (.ok [1, 2, 3]) []
      (by decide : 3 ≤ 512)
  exact List.isChain_pair.mpr answered

/-- The rest of the block is then asked for at offset 3. -/
theorem misaligned_tail :
    ¬ ∀ (strerror : Nat → String) (file : File) (start : Client) (passed : List Client),
      0 ≤ file.fd → 0 < file.alignment → file.alignment ∣ 2 ^ 64 → Starts strerror file start →
      Run (Step strerror file) start passed →
      ∀ client ∈ start :: passed, client.Aligned file := by
  intro always
  have aligned := always _ _ _ _ (by decide) (by decide) (by decide) threeByte_starts
    threeByte_runs threeByteTail (by simp)
  exact absurd (aligned 3 509 rfl).1 (by decide)

end Client

end Dsio
