import Dsio.FileReading
import Dsio.Mmap

/-!
# Opening a file

`block_size` and `File::open`, with the descriptors they take from the process and give
back to it.
-/

namespace Dsio

inductive OpenMode where
  | readOnly
  | directRead
  | writeCreate
  | directWrite
deriving DecidableEq, Repr

/-- The flags of `::open`. -/
inductive OpenFlag where
  | rdonly
  | rdwr
  | creat
  | trunc
  | direct
  | cloexec
deriving DecidableEq, Repr

/-- The flags `File::open` opens with. -/
def OpenMode.flags (mode : OpenMode) : List OpenFlag :=
  let direct := mode = .directRead ∨ mode = .directWrite
  let write := mode = .writeCreate ∨ mode = .directWrite
  (if write then [.rdwr, .creat, .trunc] else [.rdonly]) ++ (if direct then [.direct] else []) ++
    [.cloexec]

/-- What the system calls of `block_size` give: `::open`, the `BLKSSZGET` of `ioctl`, and
the block size of `statfs`. -/
structure BlockCalls where
  descriptor : List OpenFlag → Except Nat Nat
  logical : Except Nat Int
  statfs : Except Nat Nat

/-- `block_size`. -/
def blockSize (strerror : Nat → String) (calls : BlockCalls) (path : String) (process : Process) :
    Outcome Nat × Process :=
  match calls.descriptor [.rdonly, .cloexec] with
  | .error code =>
      (.error ⟨"dsio::block_size: cannot open '" ++ path ++ "': " ++ strerror code, some code⟩,
        process)
  | .ok fd =>
      let process := (process.opened fd).closed fd
      let device :=
        match calls.logical with
        | .ok logical => if 0 < logical then some logical.toNat else none
        | .error _ => none
      match device with
      | some logical => (.ok logical, process)
      | none =>
          match calls.statfs with
          | .ok size => (.ok size, process)
          | .error code =>
              (.error ⟨"dsio::block_size: cannot statfs '" ++ path ++ "': " ++ strerror code,
                some code⟩, process)

/-- What the system calls of `File::open` give. -/
structure OpenCalls where
  descriptor : List OpenFlag → Except Nat Nat
  block : BlockCalls

/-- `File::open`. -/
def File.open (strerror : Nat → String) (calls : OpenCalls) (path : String) (mode : OpenMode)
    (process : Process) : Outcome File × Process :=
  match calls.descriptor mode.flags with
  | .error code =>
      (.error ⟨"dsio::File: cannot open '" ++ path ++ "': " ++ strerror code, some code⟩, process)
  | .ok fd =>
      match blockSize strerror calls.block path (process.opened fd) with
      | (.error error, process) => (.error error, process.closed fd)
      | (.ok block, process) => (.ok ⟨fd, path, block⟩, process)

@[simp] theorem Process.closed_opened (fd : Int) (process : Process) :
    (process.opened fd).closed fd = process := by
  simp [opened, closed]

@[simp] theorem Process.closed_mapped_opened (fd : Int) (address length : Nat)
    (process : Process) :
    ((process.opened fd).mapped address length).closed fd = process.mapped address length := by
  simp [opened, closed, mapped]

/-- `block_size` leaves no descriptor behind. -/
@[simp] theorem blockSize_process (strerror : Nat → String) (calls : BlockCalls) (path : String)
    (process : Process) : (blockSize strerror calls path process).2 = process := by
  simp only [blockSize, Process.closed_opened]
  split
  · rfl
  · split
    · rfl
    · split <;> rfl

/-- An open that fails leaves the process as it was, and one that succeeds has taken the one
descriptor of its `File`. -/
theorem File.open_cases (strerror : Nat → String) (calls : OpenCalls) (path : String)
    (mode : OpenMode) (process : Process) :
    (∃ error, File.open strerror calls path mode process = (.error error, process)) ∨
    ∃ fd block, calls.descriptor mode.flags = .ok fd ∧
      File.open strerror calls path mode process = (.ok ⟨fd, path, block⟩, process.opened fd) := by
  cases given : calls.descriptor mode.flags with
  | error code =>
      simp only [File.open, given]
      exact .inl ⟨_, rfl⟩
  | ok fd =>
      have kept := blockSize_process strerror calls.block path (process.opened fd)
      simp only [File.open, given]
      cases queried : blockSize strerror calls.block path (process.opened fd) with
      | mk block left =>
          rw [queried] at kept
          subst kept
          cases block with
          | error error =>
              dsimp only
              rw [Process.closed_opened]
              exact .inl ⟨error, rfl⟩
          | ok block => exact .inr ⟨fd, block, rfl, rfl⟩

/-- `MmapFile::open` gives its descriptor back on every path. It leaves a mapping exactly
when it has given one to an `MmapFile`. -/
theorem MmapFile.open_cases (strerror : Nat → String) (sysconf : Nat) (opening : Opening)
    (path : String) (offset length : Nat) (process : Process) :
    (∃ error, MmapFile.open strerror sysconf opening path offset length process =
      (.error error, process)) ∨
    (∃ mapping, mapping.map = none ∧
      MmapFile.open strerror sysconf opening path offset length process =
        (.ok mapping, process)) ∨
    ∃ mapping address count, opening.mapped offset count = .ok address ∧
      mapping.map = some address ∧ mapping.mapLength = count ∧
      MmapFile.open strerror sysconf opening path offset length process =
        (.ok mapping, process.mapped address count) := by
  simp only [MmapFile.open, Process.closed_opened, Process.closed_mapped_opened]
  split
  · exact .inl ⟨_, rfl⟩
  split
  · exact .inl ⟨_, rfl⟩
  split
  · exact .inl ⟨_, rfl⟩
  · next fileSize _ =>
    generalize (if length = 0 then fileSize - offset else length) = wanted
    split
    · exact .inl ⟨_, rfl⟩
    split
    · exact .inl ⟨_, rfl⟩
    split
    · exact .inr (.inl ⟨_, rfl, rfl⟩)
    split
    · exact .inl ⟨_, rfl⟩
    · next address mapped => exact .inr (.inr ⟨_, address, wanted, mapped, rfl, rfl, rfl⟩)

end Dsio
