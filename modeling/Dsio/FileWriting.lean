import Dsio.FileReading
import Dsio.Library.Place

/-!
# Exact transfers

`File::pwrite` and `File::pwrite_exact`, and `pread_exact` with the memory it reads into.
The kernel takes and gives as much as it likes at a time, and interrupts finitely many
calls: what the loops do to the file and to the memory does not depend on it.
-/

namespace Dsio

open Transition Window

/-- `EIO`. -/
def eio : Nat := 5

namespace File

/-- Where a call transfers: the sum of two `uint64_t`, cast to `off_t`. -/
def callOffset (offset total : Nat) : Nat := (offset + total) % 2 ^ 64

/-! ## Writing -/

/-- Where `pwrite_exact` stands, with the bytes written so far. -/
inductive WritePoint where
  /-- In the call of `pwrite` for the rest. -/
  | writing (put : Nat)
  | returned (put : Outcome Nat)
deriving DecidableEq

/-- The head of the loop of `pwrite_exact`, and the check `pwrite` makes. -/
def writeLoop (file : File) (size put : Nat) : WritePoint :=
  if put < size then
    if file.fd < 0 then .returned (.error (closedError "pwrite")) else .writing put
  else .returned (.ok put)

/-- What an answer of the system call leads to. -/
def writeNext (strerror : Nat → String) (file : File) (size put : Nat)
    (answer : Except Nat Nat) : WritePoint :=
  match file.retried strerror "pwrite" answer with
  | none => .writing put
  | some (.error error) => .returned (.error error)
  | some (.ok count) =>
      if count = 0 then .returned (.error (fileError strerror "pwrite_exact" file.path eio))
      else file.writeLoop size (put + count)

@[simp] theorem writeNext_interrupted (strerror : Nat → String) (file : File) (size put : Nat) :
    file.writeNext strerror size put (.error eintr) = .writing put := by
  simp [writeNext, retried]

/-- Any other errno ends the write. -/
theorem writeNext_failed {code : Nat} (other : code ≠ eintr) (strerror : Nat → String)
    (file : File) (size put : Nat) : file.writeNext strerror size put (.error code) =
      .returned (.error (fileError strerror "pwrite" file.path code)) := by
  simp only [writeNext, retried, if_neg other]

/-- A call of `pwrite_exact`, the content of the file, and how often the schedule still
interrupts. -/
structure Writing where
  content : List Byte
  point : WritePoint
  interrupts : Nat

inductive WriteStep (strerror : Nat → String) (file : File) (offset : Nat) (src : List Byte) :
    Writing → Writing → Prop where
  | wrote {content put interrupts count} (fits : count ≤ src.length - put)
      (seekable : callOffset offset put < 2 ^ 63) :
      WriteStep strerror file offset src ⟨content, .writing put, interrupts⟩
        ⟨place 0 content (callOffset offset put) (window src put count),
          file.writeNext strerror src.length put (.ok count), interrupts⟩
  | interrupted {content put interrupts} :
      WriteStep strerror file offset src ⟨content, .writing put, interrupts + 1⟩
        ⟨content, file.writeNext strerror src.length put (.error eintr), interrupts⟩
  | failed {content put interrupts code} (other : code ≠ eintr) :
      WriteStep strerror file offset src ⟨content, .writing put, interrupts⟩
        ⟨content, file.writeNext strerror src.length put (.error code), interrupts⟩

/-- The call has returned: all of `src` is placed in the old content, or it has failed
with the front of `src` placed there. -/
def Writing.Ended (content : List Byte) (offset : Nat) (src : List Byte) (writing : Writing) :
    Prop :=
  writing.point = .returned (.ok src.length) ∧ writing.content = place 0 content offset src ∨
    ∃ error count, count < src.length ∧ writing.point = .returned (.error error) ∧
      writing.content = place 0 content offset (src.take count)

/-- What has been written is placed in the old content. -/
def Writing.Inv (content : List Byte) (offset : Nat) (src : List Byte) (writing : Writing) :
    Prop :=
  (∃ put, put < src.length ∧ writing.point = .writing put ∧
    writing.content = place 0 content offset (src.take put)) ∨ writing.Ended content offset src

variable {strerror : Nat → String} {file : File} {content src : List Byte} {offset : Nat}

/-- What has been put is at its place. -/
theorem writeLoop_inv (opened : 0 ≤ file.fd) {put interrupts : Nat} (within : put ≤ src.length)
    {current : List Byte} (placed : current = place 0 content offset (src.take put)) :
    Writing.Inv content offset src ⟨current, file.writeLoop src.length put, interrupts⟩ := by
  simp only [writeLoop, if_neg (Int.not_lt.mpr opened)]
  split
  · next more => exact .inl ⟨put, more, rfl, placed⟩
  · next all =>
    have whole : put = src.length := Nat.le_antisymm within (Nat.not_lt.mp all)
    rw [whole, List.take_length] at placed
    exact .inr (.inl ⟨by rw [whole], placed⟩)

/-- An answer puts its bytes behind those before. -/
theorem Writing.Inv.step (opened : 0 ≤ file.fd) (bounded : offset + src.length < 2 ^ 63)
    {before after : Writing} (inv : before.Inv content offset src)
    (transition : WriteStep strerror file offset src before after) :
    after.Inv content offset src := by
  rcases inv with ⟨put, short, point, placed⟩ | ⟨point, -⟩ | ⟨error, count, -, point, -⟩
  · cases transition with
    | @wrote current _ _ count fits _ =>
        cases point
        dsimp only at placed
        have seek : callOffset offset put = offset + (src.take put).length := by
          rw [List.length_take, Nat.min_eq_left (Nat.le_of_lt short)]
          exact Nat.mod_eq_of_lt (by omega)
        have more : src.take put ++ window src put count = src.take (put + count) :=
          List.take_add.symm
        have extended : place 0 current (callOffset offset put) (window src put count) =
            place 0 content offset (src.take (put + count)) := by
          rw [seek, placed, place_append, more]
        simp only [writeNext, retried]
        split
        · next nothing =>
          rw [extended, nothing, Nat.add_zero]
          exact .inr (.inr ⟨_, put, short, rfl, rfl⟩)
        · exact writeLoop_inv opened (by omega) extended
    | interrupted =>
        cases point
        exact .inl ⟨put, short, writeNext_interrupted strerror file src.length put, placed⟩
    | failed other =>
        cases point
        exact .inr (.inr ⟨_, put, short, writeNext_failed other .., placed⟩)
  · cases transition <;> cases point
  · cases transition <;> cases point

/-- The bytes left to write and the interrupts left. -/
def Writing.rank (src : List Byte) (writing : Writing) : Nat :=
  match writing.point with
  | .writing put => src.length - put + writing.interrupts + 1
  | .returned _ => 0

/-- The loop has at most as many answers ahead of it as bytes are missing. -/
theorem rank_writeLoop (src current : List Byte) (put interrupts : Nat) :
    Writing.rank src ⟨current, file.writeLoop src.length put, interrupts⟩ ≤
      src.length - put + interrupts + 1 := by
  simp only [writeLoop]
  split
  · split
    · exact Nat.zero_le _
    · exact Nat.le_refl _
  · exact Nat.zero_le _

/-- Every answer brings the end of the write nearer. -/
theorem WriteStep.rank_lt {before after : Writing} (inv : before.Inv content offset src)
    (transition : WriteStep strerror file offset src before after) :
    after.rank src < before.rank src := by
  have short {current : List Byte} {put interrupts : Nat}
      (inv : Writing.Inv content offset src ⟨current, .writing put, interrupts⟩) :
      put < src.length := by
    rcases inv with ⟨_, short, point, -⟩ | ⟨point, -⟩ | ⟨_, _, -, point, -⟩
    · cases point
      exact short
    · cases point
    · cases point
  cases transition with
  | @wrote current put interrupts count =>
      have left := short inv
      simp only [writeNext, retried]
      split
      · exact Nat.succ_pos _
      · refine Nat.lt_of_le_of_lt (rank_writeLoop src _ _ _) ?_
        simp only [Writing.rank]
        omega
  | interrupted =>
      rw [writeNext_interrupted]
      exact Nat.lt_succ_self _
  | failed other =>
      rw [writeNext_failed other]
      exact Nat.succ_pos _

/-- Every schedule ends a call of `pwrite_exact`. -/
theorem write_ends (strerror : Nat → String) (opened : 0 ≤ file.fd)
    (bounded : offset + src.length < 2 ^ 63) (content : List Byte) (interrupts : Nat) :
    Inevitable (WriteStep strerror file offset src) (Writing.Ended content offset src)
      ⟨content, file.writeLoop src.length 0, interrupts⟩ := by
  have initially : Writing.Inv content offset src
      ⟨content, file.writeLoop src.length 0, interrupts⟩ :=
    writeLoop_inv opened (Nat.zero_le _) (by simp)
  refine .ofRank wellFounded_lt (Writing.rank src)
    (fun inv transition => inv.step opened bounded transition) (fun writing inv running => ?_)
    (fun inv _ transition => transition.rank_lt inv) initially
  obtain ⟨current, point, interrupts⟩ := writing
  rcases inv with ⟨put, -, rfl, -⟩ | ended
  · exact ⟨_, .failed (by decide : eio ≠ eintr)⟩
  · exact absurd ended running

/-! ## Reading -/

/-- A call of `pread_exact`, the memory it reads into, and how often the schedule still
interrupts. -/
structure Reading where
  point : ExactPoint
  dst : List Byte
  interrupts : Nat

/-- The kernel writes what it gives behind what the call has got before. -/
def received (got : List Byte) (answer : Except Nat (List Byte)) (dst : List Byte) : List Byte :=
  match answer with
  | .ok data => place 0 dst got.length data
  | .error _ => dst

inductive ReadStep (kernel : Kernel) (strerror : Nat → String) (file : File) (offset : Nat) :
    Reading → Reading → Prop where
  | answered {got dst interrupts answer}
      (answers : kernel (callOffset offset got.length) (dst.length - got.length) answer) :
      ReadStep kernel strerror file offset ⟨.reading got, dst, interrupts⟩
        ⟨file.exactNext strerror dst.length got answer, received got answer dst, interrupts⟩
  | interrupted {got dst interrupts} :
      ReadStep kernel strerror file offset ⟨.reading got, dst, interrupts + 1⟩
        ⟨file.exactNext strerror dst.length got (.error eintr), dst, interrupts⟩

/-- The call has returned the bytes of the file there, as many as fit and are left, and the
rest of the memory is as it was. -/
def Reading.Exact (content : List Byte) (offset : Nat) (memory : List Byte) (reading : Reading) :
    Prop :=
  ∃ got, reading.point = .returned (.ok got) ∧
    got.length = min memory.length (content.length - offset) ∧
    reading.dst = window content offset got.length ++ memory.drop got.length

/-- What has been read fills the front of the memory. -/
structure Reading.Inv (content : List Byte) (offset : Nat) (memory : List Byte)
    (reading : Reading) : Prop where
  genuine : reading.point.Genuine content offset memory.length
  filled : ∀ got, reading.point = .reading got ∨ reading.point = .returned (.ok got) →
    reading.dst = place 0 memory 0 got
  size : reading.dst.length = memory.length
  unfailed : ∀ error, reading.point ≠ .returned (.error error)

variable {kernel : Kernel} {memory : List Byte}

/-- A read of the front of a memory keeps the rest. -/
theorem place_front (memory got : List Byte) :
    place 0 memory 0 got = got ++ memory.drop got.length := by
  by_cases none : got = []
  · rw [none, place_nil, List.length_nil, List.drop_zero, List.nil_append]
  · rw [place, if_neg none, List.take_zero, Nat.zero_sub, Nat.zero_add]
    rfl

/-- On an open descriptor the loop reads on or returns what it has. -/
theorem exactLoop_cases (opened : 0 ≤ file.fd) (size : Nat) (got : List Byte) :
    file.exactLoop size got = .reading got ∨ file.exactLoop size got = .returned (.ok got) := by
  simp only [exactLoop, if_neg (Int.not_lt.mpr opened)]
  split
  · exact .inl rfl
  · exact .inr rfl

/-- A read that goes on, or returns, with what it got. -/
theorem Reading.Inv.of_got {point : ExactPoint} {got dst : List Byte} {interrupts : Nat}
    (genuine : point.Genuine content offset memory.length)
    (holds : point = .reading got ∨ point = .returned (.ok got))
    (filled : dst = place 0 memory 0 got) (fits : got.length ≤ memory.length) :
    Reading.Inv content offset memory ⟨point, dst, interrupts⟩ where
  genuine := genuine
  filled := by
    rintro other (rfl | rfl)
    · rcases holds with holds | holds <;> cases holds
      exact filled
    · rcases holds with holds | holds <;> cases holds
      exact filled
  size := by
    rw [filled, place_front, List.length_append, List.length_drop]
    omega
  unfailed := by
    rintro error rfl
    rcases holds with holds | holds <;> cases holds

/-- What has been got is at its place. -/
theorem exactLoop_inv (opened : 0 ≤ file.fd) {got dst : List Byte} {interrupts : Nat}
    (read : got = window content offset got.length) (fits : got.length ≤ memory.length)
    (filled : dst = place 0 memory 0 got) :
    Reading.Inv content offset memory ⟨file.exactLoop memory.length got, dst, interrupts⟩ :=
  .of_got (exactLoop_genuine read fits) (exactLoop_cases opened _ _) filled fits

/-- An answer gets its bytes behind those before. -/
theorem Reading.Inv.step (opened : 0 ≤ file.fd) (splits : Splits kernel content)
    (bounded : offset + memory.length < 2 ^ 63) {before after : Reading}
    (inv : before.Inv content offset memory)
    (transition : ReadStep kernel strerror file offset before after) :
    after.Inv content offset memory := by
  obtain ⟨genuine, filled, size, -⟩ := inv
  cases transition with
  | @answered got dst interrupts answer answers =>
      have held : dst = place 0 memory 0 got := filled got (.inl rfl)
      obtain ⟨read, short⟩ := id genuine
      dsimp only at size
      have seek : callOffset offset got.length = offset + got.length :=
        Nat.mod_eq_of_lt (by omega)
      rw [seek, size] at answers
      obtain ⟨data, rfl⟩ := splits.succeeds answers
      have next : (file.exactNext strerror memory.length got (.ok data)).Genuine content offset
          memory.length := exactNext_genuine splits.toTruthful genuine answers
      obtain ⟨-, fits⟩ := splits.data answers
      have extended : received got (.ok data) dst = place 0 memory 0 (got ++ data) := by
        have appended := place_append 0 memory 0 got data
        rwa [Nat.zero_add, ← held] at appended
      rw [size]
      simp only [exactNext, retried] at next ⊢
      split
      · next ended =>
        rw [if_pos ended] at next
        rw [ended, List.append_nil] at extended
        rw [ended]
        exact .of_got next (.inr rfl) extended (Nat.le_of_lt short)
      · next some =>
        rw [if_neg some] at next
        refine .of_got next (exactLoop_cases opened _ _) extended ?_
        rw [List.length_append]
        omega
  | @interrupted got dst interrupts =>
      have again : file.exactNext strerror dst.length got (.error eintr) = .reading got := by
        simp [exactNext, retried]
      rw [again]
      exact .of_got genuine (.inl rfl) (filled got (.inl rfl)) (Nat.le_of_lt genuine.2)

/-- The bytes left to read and the interrupts left. -/
def Reading.rank (reading : Reading) : Nat :=
  match reading.point with
  | .reading got => reading.dst.length - got.length + reading.interrupts + 1
  | .returned _ => 0

/-- Every answer brings the end of the read nearer. -/
theorem ReadStep.rank_lt (opened : 0 ≤ file.fd) (splits : Splits kernel content)
    (bounded : offset + memory.length < 2 ^ 63) {before after : Reading}
    (inv : before.Inv content offset memory)
    (transition : ReadStep kernel strerror file offset before after) :
    after.rank < before.rank := by
  have size := (inv.step opened splits bounded transition).size
  have same := inv.size
  cases transition with
  | @answered got dst interrupts answer answers =>
      obtain ⟨-, short⟩ := inv.genuine
      obtain ⟨data, rfl⟩ := splits.succeeds answers
      dsimp only at size same
      rw [← same] at size
      simp only [exactNext, retried]
      split
      · exact Nat.succ_pos _
      · next some =>
        have more := List.length_pos_iff.mpr some
        rcases exactLoop_cases opened dst.length (got ++ data) with point | point
        · rw [point]
          simp only [Reading.rank, List.length_append, size]
          omega
        · rw [point]
          exact Nat.succ_pos _
  | interrupted =>
      simp only [exactNext, retried]
      exact Nat.lt_succ_self _

/-- Every schedule ends a call of `pread_exact`, with all that was to be read. -/
theorem read_ends (strerror : Nat → String) (opened : 0 ≤ file.fd)
    (splits : Splits kernel content) (bounded : offset + memory.length < 2 ^ 63)
    (interrupts : Nat) :
    Inevitable (ReadStep kernel strerror file offset) (Reading.Exact content offset memory)
      ⟨file.exactLoop memory.length [], memory, interrupts⟩ := by
  have initially : Reading.Inv content offset memory
      ⟨file.exactLoop memory.length [], memory, interrupts⟩ :=
    exactLoop_inv opened (by simp) (Nat.zero_le _) (by simp)
  refine .ofRank wellFounded_lt Reading.rank
    (fun inv transition => inv.step opened splits bounded transition) (fun reading inv running => ?_)
    (fun inv _ transition => transition.rank_lt opened splits bounded inv) initially
  obtain ⟨point, dst, interrupts⟩ := reading
  obtain ⟨genuine, filled, -, unfailed⟩ := inv
  cases point with
  | reading got =>
      obtain ⟨answer, answers⟩ := splits.total (callOffset offset got.length)
        (dst.length - got.length)
      exact ⟨_, .answered answers⟩
  | returned result =>
      cases result with
      | error error => exact absurd rfl (unfailed error)
      | ok got =>
          have read : got = window content offset memory.length := genuine
          have length := congrArg List.length read
          rw [length_window] at length
          have held := filled got (.inr rfl)
          rw [place_front] at held
          refine absurd ⟨got, rfl, length, ?_⟩ running
          rw [length, window_min_available, ← read, ← length]
          exact held

/-! ## A write and the read after it -/

/-- Exact transfers do not depend on how the kernel splits them: a write ends with all of
its data placed in the file, or fails with the front of it placed, and whatever it left, a
read then gives what the file holds. -/
theorem exact_transfers (strerror : Nat → String) (opened : 0 ≤ file.fd)
    (bounded : offset + src.length < 2 ^ 63) (content : List Byte) (interrupts : Nat) :
    Inevitable (WriteStep strerror file offset src) (Writing.Ended content offset src)
      ⟨content, file.writeLoop src.length 0, interrupts⟩ ∧
    ∀ written, Reaches (WriteStep strerror file offset src)
        ⟨content, file.writeLoop src.length 0, interrupts⟩ written →
      written.Ended content offset src →
      ∀ kernel position memory again, Splits kernel written.content →
        position + memory.length < 2 ^ 63 →
        Inevitable (ReadStep kernel strerror file position)
          (Reading.Exact written.content position memory)
          ⟨file.exactLoop memory.length [], memory, again⟩ :=
  ⟨write_ends strerror opened bounded content interrupts,
    fun _ _ _ _ _ _ again splits within => read_ends strerror opened splits within again⟩

/-- Two bytes past the end of a file of one: the gap is filled with zeros. -/
theorem exact_transfers_past_end :
    place 0 [1] 3 [7, 8] = ([1, 0, 0, 7, 8] : List Byte) ∧
    Inevitable (WriteStep (fun _ => "") ⟨3, "out", 512⟩ 3 [7, 8]) (Writing.Ended [1] 3 [7, 8])
      ⟨[1], writeLoop ⟨3, "out", 512⟩ 2 0, 5⟩ :=
  ⟨by decide, (exact_transfers (fun _ => "") (by decide) (by decide) [1] 5).1⟩

/-- What a write has placed, a read of its size gives back. -/
theorem Reading.Exact.reads_back {reading : Reading}
    (exact : reading.Exact (place 0 content offset src) offset memory)
    (sized : memory.length = src.length) : reading.dst = src := by
  obtain ⟨got, -, length, held⟩ := exact
  by_cases none : src = []
  · rw [none, List.length_nil] at sized
    rw [sized, Nat.zero_min] at length
    rw [held, length, window_zero, none, List.eq_nil_of_length_eq_zero sized]
    rfl
  · rw [length_place none, sized] at length
    have whole : got.length = src.length := by omega
    rw [held, whole, window_place, ← sized, List.drop_length, List.append_nil]

end File

end Dsio
