import Dsio.FileReading

/-!
# Sinks

Where read bytes land. `read_into` reads the largest aligned prefix of the region of a
sink. Its modulo is by the alignment of the file, which it looks at before the
descriptor: with an alignment of 0 it gives no result, `none` here.
-/

namespace Dsio

inductive MemoryKind where
  | host
  | device
deriving DecidableEq

/-- A `Sink`, by the size of its region and what its virtual functions return. -/
structure Sink where
  kind : MemoryKind
  region : Nat
  commit : Nat → Outcome Unit

/-- `HostSink`: `commit` has nothing to do. -/
def hostSink (region : Nat) : Sink := ⟨.host, region, fun _ => .ok ()⟩

namespace Sink

/-- Where `read_into` stands. -/
inductive Point where
  /-- In `pread_exact`, for the aligned prefix of the region. -/
  | exact (aligned : Nat) (point : File.ExactPoint)
  | returned (got : Outcome Nat)

/-- `read_into` up to its read. -/
def readInto (file : File) (sink : Sink) : Option Point :=
  if sink.kind = .device then
    some (.returned (.error ⟨"dsio::read_into: this build has no device backend (a cuFile build " ++
      "with an NVIDIA GPU is needed for GPUDirect Storage)", none⟩))
  else if file.alignment = 0 then none
  else
    let aligned := sink.region - sink.region % file.alignment
    if aligned = 0 then
      some (.returned (.error ⟨"dsio::read_into: the sink holds " ++ toString sink.region ++
        " bytes, less than one aligned block (" ++ toString file.alignment ++ ")", none⟩))
    else some (.exact aligned (file.exactLoop aligned []))

/-- What `read_into` makes of what `pread_exact` gave. -/
def committed (sink : Sink) (got : Outcome (List Byte)) : Outcome Nat :=
  match got with
  | .error error => .error error
  | .ok bytes =>
      match sink.commit bytes.length with
      | .error error => .error error
      | .ok () => .ok bytes.length

/-- A read that starts is one of the whole blocks of the region, and there is one. -/
theorem readInto_exact {file : File} {sink : Sink} {aligned : Nat} {point : File.ExactPoint}
    (begun : readInto file sink = some (.exact aligned point)) :
    aligned = sink.region - sink.region % file.alignment ∧ 0 < aligned ∧
      point = file.exactLoop aligned [] := by
  simp only [readInto] at begun
  split at begun
  · cases begun
  · split at begun
    · cases begun
    · split at begun
      · cases begun
      · next some =>
        cases begun
        exact ⟨rfl, Nat.pos_of_ne_zero some, rfl⟩

/-- What comes before the read returns errors only. -/
theorem readInto_returned {file : File} {sink : Sink} {got : Outcome Nat}
    (begun : readInto file sink = some (.returned got)) : ∃ error, got = .error error := by
  simp only [readInto] at begun
  split at begun
  · cases begun
    exact ⟨_, rfl⟩
  · split at begun
    · cases begun
    · split at begun
      · cases begun
        exact ⟨_, rfl⟩
      · cases begun

/-- `read_into` has no result exactly for a host sink and a file without alignment. -/
theorem readInto_eq_none {file : File} {sink : Sink} :
    readInto file sink = none ↔ sink.kind = .host ∧ file.alignment = 0 := by
  obtain ⟨kind, region, commit⟩ := sink
  cases kind with
  | device => simp [readInto]
  | host =>
      simp only [readInto, reduceCtorEq, if_false, true_and]
      constructor
      · intro failed
        by_contra some
        rw [if_neg some] at failed
        split at failed <;> cases failed
      · exact fun zero => if_pos zero

end Sink

end Dsio
