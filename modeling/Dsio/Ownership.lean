import Dsio.FileObjects
import Dsio.FileOpening
import Dsio.Library.Owning
import Dsio.Library.Transition

/-!
# Ownership of descriptors and mappings

A program opens, moves, closes and destroys any number of `File` and `MmapFile` objects,
beside others that open and close descriptors and mappings of their own. The kernel may
give a number or an address again once it is free.
-/

namespace Dsio

open Ledger Moving Transition

/-- The descriptor `close` closes, and the other operations call the system with. -/
def File.handle (file : File) : Option Int := if 0 ≤ file.fd then some file.fd else none

/-- What `unmap` unmaps: an address, and the length it is unmapped with. -/
def MmapFile.handle (mapping : MmapFile) : Option (Nat × Nat) :=
  mapping.map.map fun address => (address, mapping.mapLength)

/-- What `::munmap` does. -/
def Process.unmapped (mapping : Nat × Nat) (process : Process) : Process :=
  { process with mappings := process.mappings.erase mapping }

/-- The `MmapFile`s of a program: there is nothing to do to one but to move and destroy it. -/
def mmaps : Reading Unit Empty MmapFile where
  make _ := {}
  emptied := {}
  act := fun action => nomatch action

/-- What the process holds, what of it belongs to others, and the objects with the calls
made through them. -/
structure System where
  process : Process
  others : Process
  files : Account File Int := {}
  mmaps : Account MmapFile (Nat × Nat) := {}

namespace System

/-- `File::open`; a `File` it gives is a new object. -/
def openFile (strerror : Nat → String) (calls : OpenCalls) (path : String) (mode : OpenMode)
    (system : System) : System :=
  match File.open strerror calls path mode system.process with
  | (.error _, process) => { system with process }
  | (.ok file, process) => { system with process, files := system.files.acquire File.handle file }

/-- `MmapFile::open`. -/
def openMmap (strerror : Nat → String) (sysconf : Nat) (opening : MmapFile.Opening) (path : String)
    (offset length : Nat) (system : System) : System :=
  match MmapFile.open strerror sysconf opening path offset length system.process with
  | (.error _, process) => { system with process }
  | (.ok mapping, process) =>
      { system with process, mmaps := system.mmaps.acquire MmapFile.handle mapping }

/-- A `File` is created, moved, closed or destroyed; what it lets go of is closed. -/
def operateFile (op : Op FileOrigin FileAction) (system : System) : System :=
  { system with
    process := (system.files.released File.handle op).elim system.process fun fd =>
      system.process.closed fd
    files := system.files.operate File.handle Dsio.files op }

/-- An `MmapFile` is created, moved or destroyed; what it lets go of is unmapped. -/
def operateMmap (op : Op Unit Empty) (system : System) : System :=
  { system with
    process := (system.mmaps.released MmapFile.handle op).elim system.process fun mapping =>
      system.process.unmapped mapping
    mmaps := system.mmaps.operate MmapFile.handle Dsio.mmaps op }

/-- A call of `size`, `pread`, `pwrite` or `sync`. -/
def useFile (index : Nat) (system : System) : System :=
  { system with files := system.files.use File.handle index }

/-- Before there are any objects. -/
def start (others : Process) : System := ⟨others, others, {}, {}⟩

/-- The operations of the program, and of others on what is theirs. The kernel gives no
descriptor that is open, and maps nothing where something is mapped. -/
inductive Step (strerror : Nat → String) (sysconf : Nat) : System → System → Prop where
  | openFile {system calls path mode}
      (fresh : ∀ fd : Nat, calls.descriptor mode.flags = .ok fd →
        (fd : Int) ∉ system.process.descriptors) :
      Step strerror sysconf system (system.openFile strerror calls path mode)
  | openMmap {system opening path offset length}
      (fresh : ∀ start count address, opening.mapped start count = .ok address →
        address ∉ system.process.mappings.map Prod.fst) :
      Step strerror sysconf system (system.openMmap strerror sysconf opening path offset length)
  | file {system op} (made : ∀ fd path alignment, op ≠ .create (.opened fd path alignment)) :
      Step strerror sysconf system (system.operateFile op)
  | mmap {system op} : Step strerror sysconf system (system.operateMmap op)
  | use {system index} : Step strerror sysconf system (system.useFile index)
  | othersOpen {system fd} (fresh : fd ∉ system.process.descriptors) :
      Step strerror sysconf system
        { system with process := system.process.opened fd, others := system.others.opened fd }
  | othersClose {system fd} (theirs : fd ∈ system.others.descriptors) :
      Step strerror sysconf system
        { system with process := system.process.closed fd, others := system.others.closed fd }
  | othersMap {system address length}
      (fresh : address ∉ system.process.mappings.map Prod.fst) :
      Step strerror sysconf system
        { system with
          process := system.process.mapped address length
          others := system.others.mapped address length }
  | othersUnmap {system mapping} (theirs : mapping ∈ system.others.mappings) :
      Step strerror sysconf system
        { system with
          process := system.process.unmapped mapping
          others := system.others.unmapped mapping }

/-! ## One operation -/

/-- A file that was moved from or closed owns nothing. -/
theorem files_empties : Empties File.handle Dsio.files where
  emptied := rfl
  acted := by
    rintro ⟨⟩ file
    by_cases opened : 0 ≤ file.fd
    · simp [Dsio.files, File.handle, File.close, opened]
    · simp [Dsio.files, File.handle, File.close, opened]

/-- A mapping that was moved from owns nothing. -/
theorem mmaps_empties : Empties MmapFile.handle Dsio.mmaps where
  emptied := rfl
  acted := fun action => nomatch action

/-- The live descriptors and mappings: those of the objects, and beside those of others all
that the process holds. -/
structure Owned (descriptors : Finset Int) (mappings : Finset (Nat × Nat)) (system : System) :
    Prop where
  files : system.files.Settled File.handle descriptors
  mmaps : system.mmaps.Settled MmapFile.handle mappings
  descriptors : Shares system.process.descriptors system.others.descriptors descriptors
  mappings : Shares system.process.mappings system.others.mappings mappings

def Inv (system : System) : Prop := ∃ descriptors mappings, system.Owned descriptors mappings

variable {strerror : Nat → String} {sysconf : Nat} {system before after : System}
variable {descriptors : Finset Int} {mappings : Finset (Nat × Nat)}

/-- An open keeps the ownership of descriptors. -/
theorem Owned.openFile (owned : system.Owned descriptors mappings) {calls : OpenCalls}
    {mode : OpenMode} (fresh : ∀ fd : Nat, calls.descriptor mode.flags = .ok fd →
      (fd : Int) ∉ system.process.descriptors) (strerror : Nat → String) (path : String) :
    (system.openFile strerror calls path mode).Inv := by
  rcases File.open_cases strerror calls path mode system.process with
    ⟨error, failed⟩ | ⟨fd, block, given, opened⟩
  · rw [System.openFile, failed]
    exact ⟨descriptors, mappings, owned⟩
  · rw [System.openFile, opened]
    have free := fresh fd given
    have unowned : (fd : Int) ∉ descriptors := fun member =>
      free ((owned.descriptors.mem _).mpr (.inr member))
    have owning : File.handle ⟨fd, path, block⟩ = some (fd : Int) :=
      if_pos (Int.natCast_nonneg fd)
    exact ⟨_, mappings, owned.files.acquire owning unowned, owned.mmaps,
      owned.descriptors.acquire free, owned.mappings⟩

/-- A fresh address is not mapped. -/
theorem not_mem_of_fresh {process : Process} {address : Nat}
    (fresh : address ∉ process.mappings.map Prod.fst) (length : Nat) :
    (address, length) ∉ process.mappings :=
  fun member => fresh (List.mem_map.mpr ⟨_, member, rfl⟩)

/-- An open keeps the ownership of mappings. -/
theorem Owned.openMmap (owned : system.Owned descriptors mappings) {opening : MmapFile.Opening}
    (fresh : ∀ start count address, opening.mapped start count = .ok address →
      address ∉ system.process.mappings.map Prod.fst)
    (strerror : Nat → String) (sysconf : Nat) (path : String) (offset length : Nat) :
    (system.openMmap strerror sysconf opening path offset length).Inv := by
  rcases MmapFile.open_cases strerror sysconf opening path offset length system.process with
    ⟨error, failed⟩ | ⟨mapping, empty, opened⟩ | ⟨mapping, address, count, given, map, size, opened⟩
  · rw [System.openMmap, failed]
    exact ⟨descriptors, mappings, owned⟩
  · rw [System.openMmap, opened]
    have owning : mapping.handle = none := by rw [MmapFile.handle, empty, Option.map_none]
    exact ⟨descriptors, mappings, owned.files, owned.mmaps.push owning, owned.descriptors,
      owned.mappings⟩
  · rw [System.openMmap, opened]
    have free := not_mem_of_fresh (fresh _ _ _ given) count
    have unowned : (address, count) ∉ mappings := fun member =>
      free ((owned.mappings.mem _).mpr (.inr member))
    have owning : mapping.handle = some (address, count) := by
      rw [MmapFile.handle, map, size, Option.map_some]
    exact ⟨descriptors, _, owned.files, owned.mmaps.acquire owning unowned, owned.descriptors,
      owned.mappings.acquire free⟩

/-- Moves, closes and destructions keep the ownership of descriptors. -/
theorem Owned.operateFile (owned : system.Owned descriptors mappings)
    {op : Op FileOrigin FileAction}
    (made : ∀ fd path alignment, op ≠ .create (.opened fd path alignment)) :
    (system.operateFile op).Inv := by
  refine ⟨remaining descriptors (system.files.released File.handle op), mappings,
    owned.files.operate files_empties op ?_, owned.mmaps, ?_, ?_⟩
  · rintro origin rfl
    cases origin with
    | default => rfl
    | opened fd path alignment => exact absurd rfl (made fd path alignment)
  · simp only [System.operateFile]
    cases released : system.files.released File.handle op with
    | none => exact owned.descriptors
    | some fd => exact owned.descriptors.release (owned.files.mem_of_released released)
  · simp only [System.operateFile]
    cases system.files.released File.handle op <;> exact owned.mappings

/-- Moves and destructions keep the ownership of mappings. -/
theorem Owned.operateMmap (owned : system.Owned descriptors mappings) (op : Op Unit Empty) :
    (system.operateMmap op).Inv := by
  refine ⟨descriptors, remaining mappings (system.mmaps.released MmapFile.handle op), owned.files,
    owned.mmaps.operate mmaps_empties op fun _ _ => rfl, ?_, ?_⟩
  · simp only [System.operateMmap]
    cases system.mmaps.released MmapFile.handle op <;> exact owned.descriptors
  · simp only [System.operateMmap]
    cases released : system.mmaps.released MmapFile.handle op with
    | none => exact owned.mappings
    | some mapping => exact owned.mappings.release (owned.mmaps.mem_of_released released)

/-- Every step keeps each resource owned once. -/
theorem Inv.step (inv : before.Inv) (transition : Step strerror sysconf before after) :
    after.Inv := by
  obtain ⟨descriptors, mappings, owned⟩ := inv
  cases transition with
  | openFile fresh => exact owned.openFile fresh strerror _
  | openMmap fresh => exact owned.openMmap fresh strerror sysconf _ _ _
  | file made => exact owned.operateFile made
  | mmap => exact owned.operateMmap _
  | use =>
      exact ⟨descriptors, mappings, owned.files.use _, owned.mmaps, owned.descriptors,
        owned.mappings⟩
  | othersOpen fresh =>
      exact ⟨descriptors, mappings, owned.files, owned.mmaps, owned.descriptors.lend fresh,
        owned.mappings⟩
  | othersClose theirs =>
      exact ⟨descriptors, mappings, owned.files, owned.mmaps, owned.descriptors.giveBack theirs,
        owned.mappings⟩
  | othersMap fresh =>
      exact ⟨descriptors, mappings, owned.files, owned.mmaps, owned.descriptors,
        owned.mappings.lend (not_mem_of_fresh fresh _)⟩
  | othersUnmap theirs =>
      exact ⟨descriptors, mappings, owned.files, owned.mmaps, owned.descriptors,
        owned.mappings.giveBack theirs⟩

/-! ## Runs -/

/-- After every run each descriptor that `File::open` gave is held by one `File` or has been
closed once, each mapping is held by one `MmapFile` or has been unmapped once with its
length, and the process holds nothing else but what belongs to others. No open that fails
leaves anything behind, and `MmapFile::open` no descriptor at all. -/
theorem owned_once {others : Process} (descriptors : others.descriptors.Nodup)
    (mappings : others.mappings.Nodup)
    (run : Reaches (Step strerror sysconf) (start others) system) :
    system.files.Accounted File.handle system.process.descriptors system.others.descriptors ∧
    system.mmaps.Accounted MmapFile.handle system.process.mappings system.others.mappings ∧
    (∀ calls path mode process error,
      (File.open strerror calls path mode process).1 = .error error →
      (File.open strerror calls path mode process).2 = process) ∧
    ∀ opening path offset length process,
      (MmapFile.open strerror sysconf opening path offset length process).2.descriptors =
        process.descriptors ∧
      ∀ error, (MmapFile.open strerror sysconf opening path offset length process).1 =
          .error error →
        (MmapFile.open strerror sysconf opening path offset length process).2 = process := by
  have initially : (start others).Inv :=
    ⟨∅, ∅, Account.settled_empty _, Account.settled_empty _, shares_empty descriptors,
      shares_empty mappings⟩
  obtain ⟨descriptors, mappings, owned⟩ := run.preserves Inv.step initially
  refine ⟨owned.files.accounted owned.descriptors, owned.mmaps.accounted owned.mappings, ?_, ?_⟩
  · intro calls path mode process error failed
    rcases File.open_cases strerror calls path mode process with
      ⟨_, opened⟩ | ⟨fd, block, -, opened⟩
    · rw [opened]
    · rw [opened] at failed
      cases failed
  · intro opening path offset length process
    rcases MmapFile.open_cases strerror sysconf opening path offset length process with
      ⟨_, opened⟩ | ⟨mapping, -, opened⟩ | ⟨mapping, address, count, -, -, -, opened⟩
    · rw [opened]
      exact ⟨rfl, fun _ _ => rfl⟩
    · rw [opened]
      exact ⟨rfl, fun _ _ => rfl⟩
    · rw [opened]
      refine ⟨rfl, fun error failed => ?_⟩
      cases failed

/-- The kernel gives 3, also when it has given 3 before and 3 is free again. -/
def threeCalls : OpenCalls := ⟨fun _ => .ok 3, ⟨fun _ => .ok 4, .ok 512, .ok 4096⟩⟩

def standard : Process := ⟨[0, 1, 2], []⟩

def oneOpen : System := (start standard).openFile (fun _ => "") threeCalls "data" .directRead

/-- The `File` is moved, and closed where it was moved to. -/
def oneClosed : System := (oneOpen.operateFile (.moveConstruct 0)).operateFile (.act 1 .close)

def reused : System := oneClosed.openFile (fun _ => "") threeCalls "data" .readOnly

/-- A descriptor's number is closed and given out again. -/
theorem reused_reaches : Reaches (Step (fun _ => "") 4096) (start standard) reused := by
  have opens : Step (fun _ => "") 4096 (start standard) oneOpen := by
    refine .openFile fun fd given => ?_
    cases given
    decide
  have moves : Step (fun _ => "") 4096 oneOpen (oneOpen.operateFile (.moveConstruct 0)) :=
    .file nofun
  have closes : Step (fun _ => "") 4096 (oneOpen.operateFile (.moveConstruct 0)) oneClosed :=
    .file nofun
  have opensAgain : Step (fun _ => "") 4096 oneClosed reused := by
    refine .openFile fun fd given => ?_
    cases given
    decide
  exact (((Relation.ReflTransGen.single opens).tail moves).tail closes).tail opensAgain

/-- The third object holds 3, and the two that held it before do not. -/
theorem reused_owned_once : ∃! index, reused.files.Holds File.handle index 3 :=
  (owned_once (by decide) (by decide) reused_reaches).1.one 2 3 rfl

end System

end Dsio
