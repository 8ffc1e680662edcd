import Dsio.Ownership

/-!
# Advice on mappings

`MmapFile::advise` passes a range of the mapping to `madvise`. Wherever the objects have
been moved to, and whatever has been unmapped by then, the range lies within a mapping the
object still owns.
-/

namespace Dsio

open Ledger Moving Transition

/-- Read-ahead hints. -/
inductive Advice where
  | normal | sequential | random | willNeed | dontNeed
deriving DecidableEq, Repr

/-- `to_madvise`, with the numbers of `MADV_NORMAL` and the others. -/
def Advice.toMadvise : Advice → Nat
  | .normal => 0
  | .sequential => 2
  | .random => 1
  | .willNeed => 3
  | .dontNeed => 4

/-- A call of `madvise`. -/
structure AdviseCall where
  address : Nat
  length : Nat
  advice : Nat
deriving DecidableEq, Repr

namespace MmapFile

/-- The call `advise` makes, if it makes one. -/
def adviseCall (sysconf : Nat) (advice : Advice) (offset length : Nat) (mapping : MmapFile) :
    Outcome (Option AdviseCall) :=
  if mapping.size = 0 then .ok none
  else if mapping.size < offset then
    .error ⟨"dsio::MmapFile::advise: offset past the end of the mapping", none⟩
  else if offset % pageSize sysconf ≠ 0 then
    .error ⟨"dsio::MmapFile::advise: offset is not page-aligned", none⟩
  else
    let length := if length = 0 ∨ mapping.size - offset < length then mapping.size - offset
      else length
    .ok (mapping.data.map fun data => ⟨data + offset, length, advice.toMadvise⟩)

/-- `advise`, by what `madvise` gives. -/
def advise (strerror : Nat → String) (madvise : AdviseCall → Except Nat Unit) (sysconf : Nat)
    (advice : Advice) (offset length : Nat) (mapping : MmapFile) : Outcome Unit :=
  match mapping.adviseCall sysconf advice offset length with
  | .error error => .error error
  | .ok none => .ok ()
  | .ok (some call) =>
      match madvise call with
      | .ok () => .ok ()
      | .error code => .error ⟨"dsio::MmapFile::advise: " ++ strerror code, some code⟩

def prefetch (strerror : Nat → String) (madvise : AdviseCall → Except Nat Unit) (sysconf : Nat)
    (offset length : Nat) (mapping : MmapFile) : Outcome Unit :=
  mapping.advise strerror madvise sysconf .willNeed offset length

def drop (strerror : Nat → String) (madvise : AdviseCall → Except Nat Unit) (sysconf : Nat)
    (offset length : Nat) (mapping : MmapFile) : Outcome Unit :=
  mapping.advise strerror madvise sysconf .dontNeed offset length

/-- The members agree on what is mapped. -/
inductive Coherent : MmapFile → Prop where
  | empty : Coherent {}
  | mapped (address length : Nat) : Coherent ⟨some address, length, some address, length⟩

/-- A mapping that is opened begins at a page. -/
theorem coherent_of_open {strerror : Nat → String} {sysconf : Nat} {opening : Opening}
    {path : String} {offset length : Nat} {process after : Process} {mapping : MmapFile}
    (opened : MmapFile.open strerror sysconf opening path offset length process =
      (.ok mapping, after)) : Coherent mapping := by
  simp only [MmapFile.open] at opened
  split at opened
  · cases opened
  split at opened
  · cases opened
  split at opened
  · cases opened
  · next fileSize _ =>
    generalize (if length = 0 then fileSize - offset else length) = wanted at opened
    split at opened
    · cases opened
    split at opened
    · cases opened
    split at opened
    · next empty =>
      cases opened
      rw [empty]
      exact .empty
    split at opened
    · cases opened
    · cases opened
      exact .mapped _ _

/-- The offsets `advise` does not take, each with the error that names what is wrong. -/
inductive BadOffset (sysconf : Nat) (mapping : MmapFile) (offset : Nat) : Error → Prop where
  | beyond (past : mapping.size < offset) : BadOffset sysconf mapping offset
      ⟨"dsio::MmapFile::advise: offset past the end of the mapping", none⟩
  | unaligned (inside : offset ≤ mapping.size) (off : ¬ pageSize sysconf ∣ offset) :
      BadOffset sysconf mapping offset
        ⟨"dsio::MmapFile::advise: offset is not page-aligned", none⟩

variable {sysconf : Nat} {mapping : MmapFile}

/-- The three ways a call of `advise` on a coherent object goes. -/
theorem Coherent.adviseCall_cases (coherent : Coherent mapping) (sysconf : Nat) (advice : Advice)
    (offset length : Nat) :
    (∃ error, mapping.adviseCall sysconf advice offset length = .error error ∧
        BadOffset sysconf mapping offset error) ∨
      (mapping.adviseCall sysconf advice offset length = .ok none ∧ mapping.size = 0) ∨
      ∃ start whole count, mapping.handle = some (start, whole) ∧
        mapping.adviseCall sysconf advice offset length =
          .ok (some ⟨start + offset, count, advice.toMadvise⟩) ∧
        pageSize sysconf ∣ offset ∧ offset + count ≤ whole := by
  cases coherent with
  | empty => exact .inr (.inl ⟨rfl, rfl⟩)
  | mapped start whole =>
      simp only [adviseCall, Option.map_some]
      split
      · next nothing => exact .inr (.inl ⟨rfl, nothing⟩)
      split
      · next past => exact .inl ⟨_, rfl, .beyond past⟩
      split
      · next inside off =>
        refine .inl ⟨_, rfl, .unaligned (Nat.le_of_not_lt inside) fun page => off ?_⟩
        exact Nat.mod_eq_zero_of_dvd page
      · next inside page =>
        refine .inr (.inr ⟨start, whole, _, rfl, rfl, ?_, ?_⟩)
        · exact Nat.dvd_of_mod_eq_zero (not_not.mp page)
        · split <;> omega

end MmapFile

namespace System

variable {strerror : Nat → String} {sysconf : Nat} {system before after : System}

/-- Every `MmapFile` of the program is coherent. -/
def Coherent (system : System) : Prop :=
  Related (fun mapping _ => mapping.Coherent) system.mmaps.table system.mmaps.table

/-- Every step keeps the mappings coherent. -/
theorem Coherent.step (coherent : before.Coherent)
    (transition : Step strerror sysconf before after) : after.Coherent := by
  cases transition with
  | @openMmap system opening path offset length =>
      rw [System.openMmap]
      split
      · exact coherent
      · next mapping process opened =>
        exact Related.push coherent (MmapFile.coherent_of_open opened)
  | @mmap op =>
      exact Related.step coherent op (fun _ _ => .empty) .empty fun action => action.elim
  | openFile => rw [Coherent, System.openFile]; split <;> exact coherent
  | file | use | othersOpen | othersClose | othersMap | othersUnmap => exact coherent

/-- The mapping of an object is coherent. -/
theorem Coherent.mapping {index : Nat} {mapping : MmapFile} (coherent : system.Coherent)
    (held : system.mmaps.table.held index = some mapping) : mapping.Coherent := by
  have values := Related.held coherent index
  rw [held] at values
  cases values with
  | some values => exact values

/-- What an object owns is mapped, and is nobody else's. -/
theorem Inv.owns {index : Nat} {owned : Nat × Nat} (inv : system.Inv)
    (holds : system.mmaps.Holds MmapFile.handle index owned) :
    owned ∈ system.process.mappings ∧ owned ∉ system.others.mappings := by
  obtain ⟨descriptors, mappings, settled⟩ := inv
  have accounted := settled.mmaps.accounted settled.mappings
  exact ⟨(accounted.mem owned).mpr (.inr ⟨index, holds⟩),
    fun theirs => accounted.apart owned theirs index holds⟩

/-- After every run, a call of `advise` on any object names what is wrong with its offset, does
nothing for an object that maps nothing, or passes `madvise` a range that starts at a page and
lies within a mapping that is live and owned by this object. -/
theorem advice_stays_mapped {others : Process} (descriptors : others.descriptors.Nodup)
    (mappings : others.mappings.Nodup)
    (run : Reaches (Step strerror sysconf) (start others) system)
    (paged : ∀ mapping ∈ system.process.mappings, pageSize sysconf ∣ mapping.1)
    {index : Nat} {mapping : MmapFile} (held : system.mmaps.table.held index = some mapping)
    (madvise : AdviseCall → Except Nat Unit) (advice : Advice) (offset length : Nat) :
    (∃ error, mapping.advise strerror madvise sysconf advice offset length = .error error ∧
        MmapFile.BadOffset sysconf mapping offset error) ∨
      (mapping.advise strerror madvise sysconf advice offset length = .ok () ∧
        mapping.adviseCall sysconf advice offset length = .ok none ∧ mapping.size = 0) ∨
      ∃ call start whole,
        mapping.adviseCall sysconf advice offset length = .ok (some call) ∧
        system.mmaps.Holds MmapFile.handle index (start, whole) ∧
        (start, whole) ∈ system.process.mappings ∧ (start, whole) ∉ system.others.mappings ∧
        pageSize sysconf ∣ call.address ∧ start ≤ call.address ∧
        call.address + call.length ≤ start + whole := by
  have inv : system.Inv := run.preserves Inv.step
    ⟨∅, ∅, Account.settled_empty _, Account.settled_empty _, shares_empty descriptors,
      shares_empty mappings⟩
  have coherent : system.Coherent := run.preserves Coherent.step ⟨rfl, fun _ => .none⟩
  rcases (coherent.mapping held).adviseCall_cases sysconf advice offset length with
    ⟨error, failed, reason⟩ | ⟨none, empty⟩ | ⟨start, whole, count, handle, called, page, within⟩
  · exact .inl ⟨error, by rw [MmapFile.advise, failed], reason⟩
  · exact .inr (.inl ⟨by rw [MmapFile.advise, none], none, empty⟩)
  · have holds : system.mmaps.Holds MmapFile.handle index (start, whole) := by
      rw [Account.Holds, owners, held]
      exact handle
    obtain ⟨live, ours⟩ := inv.owns holds
    refine .inr (.inr ⟨_, start, whole, called, holds, live, ours, ?_, Nat.le_add_right .., ?_⟩)
    · exact Nat.dvd_add (paged _ live) page
    · dsimp only
      omega

/-- Two pages of a file, mapped and moved. -/
def pagesOpening : MmapFile.Opening := ⟨.ok 3, .ok 8192, fun _ _ => .ok 65536⟩

def pagesMoved : System :=
  ((start standard).openMmap (fun _ => "") 4096 pagesOpening "data" 0 0).operateMmap
    (.moveConstruct 0)

/-- Two pages are mapped, and the object is moved. -/
theorem pagesMoved_reaches : Reaches (Step (fun _ => "") 4096) (start standard) pagesMoved := by
  have opens : Step (fun _ => "") 4096 (start standard)
      ((start standard).openMmap (fun _ => "") 4096 pagesOpening "data" 0 0) :=
    .openMmap fun _ _ _ _ => by simp [start, standard]
  exact (Relation.ReflTransGen.single opens).tail .mmap

/-- The object the mapping was moved to passes its second page on. -/
theorem second_page_mapped :
    ∃ call start whole,
      MmapFile.adviseCall 4096 .willNeed 4096 0 ⟨some 65536, 8192, some 65536, 8192⟩ =
        .ok (some call) ∧
      pagesMoved.mmaps.Holds MmapFile.handle 1 (start, whole) ∧
      (start, whole) ∈ pagesMoved.process.mappings ∧ 4096 ∣ call.address ∧
      call.address + call.length ≤ start + whole := by
  have held : pagesMoved.mmaps.table.held 1 = some ⟨some 65536, 8192, some 65536, 8192⟩ := rfl
  have paged : ∀ mapping ∈ pagesMoved.process.mappings, pageSize 4096 ∣ mapping.1 := by decide
  rcases advice_stays_mapped (by decide) (by decide) pagesMoved_reaches paged held
    (fun _ => .ok ()) .willNeed 4096 0 with ⟨error, failed, -⟩ | ⟨-, -, empty⟩ |
      ⟨call, start, whole, called, holds, live, -, page, -, within⟩
  · cases failed
  · cases empty
  · exact ⟨call, start, whole, called, holds, live, page, within⟩

end System

end Dsio
