import Dsio.FileReading

/-!
# Memory mappings

`MmapFile::open` maps a window of a file. It takes a descriptor from the process for as
long as the call lasts, and a mapping that the `MmapFile` owns.
-/

namespace Dsio

open Window

/-- `page_size()`, by what `sysconf` gives. -/
def pageSize (sysconf : Nat) : Nat := if sysconf = 0 then 4096 else sysconf

/-- What a process holds: its open descriptors, and its mappings with their lengths. -/
structure Process where
  descriptors : List Int := []
  mappings : List (Nat × Nat) := []
deriving DecidableEq, Repr

namespace Process

/-- `::close`. -/
def closed (fd : Int) (process : Process) : Process :=
  { process with descriptors := process.descriptors.erase fd }

/-- What `::open` does when it gives a descriptor. -/
def opened (fd : Int) (process : Process) : Process :=
  { process with descriptors := fd :: process.descriptors }

/-- What `::mmap` does when it gives an address. -/
def mapped (address length : Nat) (process : Process) : Process :=
  { process with mappings := (address, length) :: process.mappings }

end Process

/-- A mapping of a file window; the pointers are null (`none`) when there is none. -/
structure MmapFile where
  map : Option Nat := none
  mapLength : Nat := 0
  data : Option Nat := none
  size : Nat := 0
deriving DecidableEq, Repr

namespace MmapFile

/-- `mmap_error`. -/
def mmapError (strerror : Nat → String) (what path : String) (code : Nat) : Error :=
  ⟨"dsio::MmapFile::" ++ what ++ " '" ++ path ++ "': " ++ strerror code, some code⟩

/-- What the system calls of `open` give: `::open` a descriptor, `fstat` the size of the
file, `mmap` an address for the offset and the length it is called with. -/
structure Opening where
  descriptor : Except Nat Int
  stat : Except Nat Nat
  mapped : Nat → Nat → Except Nat Nat

def «open» (strerror : Nat → String) (sysconf : Nat) (opening : Opening) (path : String)
    (offset length : Nat) (process : Process) : Outcome MmapFile × Process :=
  if offset % pageSize sysconf ≠ 0 then
    (.error ⟨"dsio::MmapFile::open '" ++ path ++ "': offset " ++ toString offset ++
      " is not page-aligned", none⟩, process)
  else
    match opening.descriptor with
    | .error code => (.error (mmapError strerror "open" path code), process)
    | .ok fd =>
        let process := process.opened fd
        match opening.stat with
        | .error code => (.error (mmapError strerror "stat" path code), process.closed fd)
        | .ok fileSize =>
            if fileSize < offset then
              (.error ⟨"dsio::MmapFile::open '" ++ path ++ "': offset " ++ toString offset ++
                " is past the end of the file (" ++ toString fileSize ++ " bytes)", none⟩,
                process.closed fd)
            else
              let length := if length = 0 then fileSize - offset else length
              if fileSize - offset < length then
                (.error ⟨"dsio::MmapFile::open '" ++ path ++ "': window of " ++
                  toString length ++ " bytes at " ++ toString offset ++
                  " extends past the end of the file", none⟩, process.closed fd)
              else if length = 0 then (.ok { size := length }, process.closed fd)
              else
                match opening.mapped offset length with
                | .error code => (.error (mmapError strerror "mmap" path code), process.closed fd)
                | .ok address =>
                    (.ok {
                      map := some address
                      mapLength := length
                      data := some address
                      size := length }, (process.mapped address length).closed fd)

/-- `bytes()`, in a memory that gives the bytes from each address on. -/
def bytes (memory : Nat → List Byte) (mapping : MmapFile) : List Byte :=
  match mapping.data with
  | some address => (memory address).take mapping.size
  | none => []

/-- The calls that open a window succeed on a file of this content, and whatever part of the
file is mapped, memory shows it. -/
structure Opens (content : List Byte) (offset length : Nat) (memory : Nat → List Byte)
    (opening : Opening) : Prop where
  descriptor : ∃ fd, opening.descriptor = .ok fd
  stat : opening.stat = .ok content.length
  mapped : ∃ address, opening.mapped offset length = .ok address
  shows : ∀ start count address, start + count ≤ content.length →
    opening.mapped start count = .ok address → (memory address).take count =
      window content start count

/-- A window inside the file, at a page of it, is mapped as it is. -/
theorem Opens.window_opens {content : List Byte} {offset length sysconf : Nat}
    {memory : Nat → List Byte} {opening : Opening}
    (opens : Opens content offset length memory opening) (page : pageSize sysconf ∣ offset)
    (some : 0 < length) (inside : offset + length ≤ content.length) (strerror : Nat → String)
    (path : String) (process : Process) :
    ∃ mapping after,
      MmapFile.open strerror sysconf opening path offset length process = (.ok mapping, after) ∧
      mapping.bytes memory = window content offset length := by
  obtain ⟨⟨fd, descriptor⟩, stat, ⟨address, mapped⟩, shows⟩ := opens
  have grid : ¬ offset % pageSize sysconf ≠ 0 := fun off => off (Nat.mod_eq_zero_of_dvd page)
  have before : ¬ content.length < offset := by omega
  have nonempty : ¬ length = 0 := Nat.pos_iff_ne_zero.mp some
  have fits : ¬ content.length - offset < length := by omega
  refine ⟨⟨.some address, length, .some address, length⟩,
    ((process.opened fd).mapped address length).closed fd, ?_,
    shows offset length address inside mapped⟩
  simp only [MmapFile.open, if_neg grid, descriptor, stat, if_neg before, if_neg nonempty,
    if_neg fits, mapped]

end MmapFile

end Dsio
