import Dsio.Library.Transition
import Dsio.Library.Window
import Dsio.Outcome
import Dsio.Shard

/-!
# Reading a file

`File::size`, `File::pread` and `File::pread_exact`. `ExactPoint` is where a call of
`pread_exact` stands between two system calls.
-/

namespace Dsio

open Transition Window

/-- What a positional read of `length` bytes at `offset` may give: its data or an errno.
Offsets are below 2^63, where `off_t` and the unsigned offset of an entry agree. -/
abbrev Kernel := Nat → Nat → Except Nat (List Byte) → Prop

/-- A kernel that reads this file: it gives bytes of the file, and none only at its end. -/
structure Truthful (kernel : Kernel) (content : List Byte) : Prop where
  data {offset length data} (answers : kernel offset length (.ok data)) :
    data = window content offset data.length ∧ data.length ≤ length
  ends {offset length} (answers : kernel offset length (.ok [])) :
    length = 0 ∨ content.length ≤ offset

/-- A kernel that reads this file without errors, in pieces of any length. -/
structure Splits (kernel : Kernel) (content : List Byte) : Prop extends Truthful kernel content where
  total (offset length : Nat) : ∃ answer, kernel offset length answer
  succeeds {offset length answer} (answers : kernel offset length answer) :
    ∃ data, answer = .ok data

/-- A kernel that reads all there is of this file, without errors. -/
def wholeReads (content : List Byte) : Kernel :=
  fun offset length answer => answer = .ok (window content offset length)

/-- A kernel that reads in full is truthful. -/
theorem wholeReads_truthful (content : List Byte) : Truthful (wholeReads content) content where
  data := by
    rintro offset length data ⟨⟩
    refine ⟨?_, by simp⟩
    rw [length_window, window_min_available]
  ends := by
    intro offset length answers
    have none := congrArg List.length (Except.ok.inj answers)
    rw [length_window, List.length_nil] at none
    omega

/-- A kernel that reads in full splits reads. -/
theorem wholeReads_splits (content : List Byte) : Splits (wholeReads content) content where
  toTruthful := wholeReads_truthful content
  total := fun _ _ => ⟨_, rfl⟩
  succeeds := fun answers => ⟨_, answers⟩

/-- `EINTR`. -/
def eintr : Nat := 4

namespace File

/-- `file_error`. -/
def fileError (strerror : Nat → String) (operation path : String) (code : Nat) : Error :=
  ⟨"dsio::File::" ++ operation ++ " '" ++ path ++ "': " ++ strerror code, some code⟩

/-- `closed_error`. -/
def closedError (operation : String) : Error :=
  ⟨"dsio::File::" ++ operation ++ ": file is closed", none⟩

/-- What an operation does with the answer of its system call: an interrupted call is
made again (`none`). -/
def retried {α : Type} (strerror : Nat → String) (operation : String) (file : File) :
    Except Nat α → Option (Outcome α)
  | .ok value => some (.ok value)
  | .error code =>
      if code = eintr then none else some (.error (fileError strerror operation file.path code))

/-- `size()`, by what `fstat` gives. -/
def size (strerror : Nat → String) (stat : Except Nat Nat) (file : File) : Outcome Nat :=
  if file.fd < 0 then .error (closedError "size")
  else
    match stat with
    | .ok bytes => .ok bytes
    | .error code => .error (fileError strerror "size" file.path code)

/-- Where `pread_exact` stands, with the bytes read so far. -/
inductive ExactPoint where
  /-- In the call of `pread` for the rest. -/
  | reading (got : List Byte)
  | returned (got : Outcome (List Byte))
deriving DecidableEq

/-- The head of the loop of `pread_exact` into `size` bytes, and the check `pread` makes. -/
def exactLoop (file : File) (size : Nat) (got : List Byte) : ExactPoint :=
  if got.length < size then
    if file.fd < 0 then .returned (.error (closedError "pread")) else .reading got
  else .returned (.ok got)

/-- What an answer of the system call leads to. -/
def exactNext (strerror : Nat → String) (file : File) (size : Nat) (got : List Byte)
    (answer : Except Nat (List Byte)) : ExactPoint :=
  match file.retried strerror "pread" answer with
  | none => .reading got
  | some (.error error) => .returned (.error error)
  | some (.ok data) => if data = [] then .returned (.ok got) else file.exactLoop size (got ++ data)

/-! ## What it returns -/

/-- The bytes read so far are those of the file, and those returned are all there are. -/
def ExactPoint.Genuine (content : List Byte) (offset size : Nat) : ExactPoint → Prop
  | .reading got => got = window content offset got.length ∧ got.length < size
  | .returned (.ok got) => got = window content offset size
  | .returned (.error _) => True

variable {strerror : Nat → String} {file : File} {content : List Byte} {offset size : Nat}

/-- What the loop has got is the file's. -/
theorem exactLoop_genuine {got : List Byte} (genuine : got = window content offset got.length)
    (fits : got.length ≤ size) : (file.exactLoop size got).Genuine content offset size := by
  simp only [exactLoop]
  split
  · next short =>
    split
    · trivial
    · exact ⟨genuine, short⟩
  · next full =>
    have whole : got.length = size := Nat.le_antisymm fits (Nat.not_lt.mp full)
    rw [whole] at genuine
    exact genuine

/-- An answer adds the file's next bytes. -/
theorem exactNext_genuine {kernel : Kernel} (truthful : Truthful kernel content)
    {got : List Byte} {answer : Except Nat (List Byte)}
    (genuine : (ExactPoint.reading got).Genuine content offset size)
    (answers : kernel (offset + got.length) (size - got.length) answer) :
    (file.exactNext strerror size got answer).Genuine content offset size := by
  obtain ⟨read, short⟩ := genuine
  cases answer with
  | error code =>
      simp only [exactNext, retried]
      by_cases interrupted : code = eintr
      · rw [if_pos interrupted]
        exact ⟨read, short⟩
      · rw [if_neg interrupted]
        trivial
  | ok data =>
      obtain ⟨bytes, fits⟩ := truthful.data answers
      simp only [exactNext, retried]
      split
      · next ended =>
        rw [ended] at answers
        have beyond : content.length ≤ offset + got.length :=
          (truthful.ends answers).resolve_left (by omega)
        rw [ExactPoint.Genuine, window_split content offset (Nat.le_of_lt short), ← read,
          window_eq_nil _ beyond, List.append_nil]
      · have split := window_split content offset (Nat.le_add_right got.length data.length)
        rw [Nat.add_sub_cancel_left, ← read, ← bytes, ← List.length_append] at split
        exact exactLoop_genuine split.symm (by rw [List.length_append]; omega)

end File

end Dsio
