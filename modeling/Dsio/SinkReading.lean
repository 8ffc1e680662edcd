import Dsio.FileWriting
import Dsio.Sink

/-!
# Reading into a sink

A call of `read_into`, with the memory of the sink it fills. The kernel gives as much as it
likes at a time, interrupts finitely many calls and may fail. What ends up in the memory, and
what the sink is asked to commit, is a matter of the file and the region alone.
-/

namespace Dsio.Sink

open Transition Window

/-- A call of `read_into`, the memory of its sink, how often the schedule still interrupts,
and what `commit` has been called with. -/
structure Filling where
  point : Point
  memory : List Byte
  interrupts : Nat
  commits : List Nat := []

inductive FillStep (kernel : Kernel) (strerror : Nat → String) (file : File) (sink : Sink)
    (offset : Nat) : Filling → Filling → Prop where
  | answered {aligned got memory interrupts commits answer}
      (answers : kernel (File.callOffset offset got.length) (aligned - got.length) answer) :
      FillStep kernel strerror file sink offset
        ⟨.exact aligned (.reading got), memory, interrupts, commits⟩
        ⟨.exact aligned (file.exactNext strerror aligned got answer),
          File.received got answer memory, interrupts, commits⟩
  | interrupted {aligned got memory interrupts commits} :
      FillStep kernel strerror file sink offset
        ⟨.exact aligned (.reading got), memory, interrupts + 1, commits⟩
        ⟨.exact aligned (file.exactNext strerror aligned got (.error eintr)), memory, interrupts,
          commits⟩
  | failed {aligned error memory interrupts commits} :
      FillStep kernel strerror file sink offset
        ⟨.exact aligned (.returned (.error error)), memory, interrupts, commits⟩
        ⟨.returned (sink.committed (.error error)), memory, interrupts, commits⟩
  | committed {aligned got memory interrupts commits} :
      FillStep kernel strerror file sink offset
        ⟨.exact aligned (.returned (.ok got)), memory, interrupts, commits⟩
        ⟨.returned (sink.committed (.ok got)), memory, interrupts, commits ++ [got.length]⟩

/-- A front of the memory holds what the file has there, and the rest is as it was. -/
structure Holds (content : List Byte) (offset : Nat) (region memory got : List Byte) : Prop where
  read : got = window content offset got.length
  memory : memory = got ++ region.drop got.length

/-- The read for the rest of the blocks failed with this code: `error` is what `pread` makes
of it. -/
structure Fails (kernel : Kernel) (strerror : Nat → String) (file : File) (offset aligned : Nat)
    (got : List Byte) (code : Nat) (error : Error) : Prop where
  short : got.length < aligned
  answers : kernel (File.callOffset offset got.length) (aligned - got.length) (.error code)
  reports : error = File.fileError strerror "pread" file.path code

/-- The call has returned: the file fills the whole blocks of the region as far as it goes, and
the sink was asked once to commit that much; or a read failed, its error is what the call
returned, and the sink was not asked. -/
inductive Filling.Ended (kernel : Kernel) (strerror : Nat → String) (file : File)
    (content : List Byte) (offset : Nat) (sink : Sink) (region : List Byte) (aligned : Nat)
    (filling : Filling) : Prop where
  | filled (count : Nat) (all : count = min aligned (content.length - offset))
      (point : filling.point = .returned ((sink.commit count).map fun _ => count))
      (memory : filling.memory = window content offset count ++ region.drop count)
      (commits : filling.commits = [count])
  | failed (code : Nat) (error : Error) (got : List Byte)
      (point : filling.point = .returned (.error error))
      (fails : Fails kernel strerror file offset aligned got code error)
      (holds : Holds content offset region filling.memory got) (commits : filling.commits = [])

/-- What holds before the call has returned. -/
inductive Filling.Reading (kernel : Kernel) (strerror : Nat → String) (file : File)
    (content : List Byte) (offset : Nat) (region : List Byte) (aligned : Nat) :
    Filling → Prop where
  | reading {got memory interrupts} (short : got.length < aligned)
      (holds : Holds content offset region memory got) :
      Reading kernel strerror file content offset region aligned
        ⟨.exact aligned (.reading got), memory, interrupts, []⟩
  | read {got memory interrupts} (whole : got = window content offset aligned)
      (holds : Holds content offset region memory got) :
      Reading kernel strerror file content offset region aligned
        ⟨.exact aligned (.returned (.ok got)), memory, interrupts, []⟩
  | failing {code error got memory interrupts}
      (fails : Fails kernel strerror file offset aligned got code error)
      (holds : Holds content offset region memory got) :
      Reading kernel strerror file content offset region aligned
        ⟨.exact aligned (.returned (.error error)), memory, interrupts, []⟩

variable {kernel : Kernel} {strerror : Nat → String} {file : File} {sink : Sink}
variable {content region : List Byte} {offset aligned : Nat}

/-- A piece read behind those before it. -/
theorem Holds.received {memory got data : List Byte}
    (holds : Holds content offset region memory got)
    (piece : data = window content (offset + got.length) data.length) :
    Holds content offset region (File.received got (.ok data) memory) (got ++ data) where
  read := by
    have split := window_split content offset (Nat.le_add_right got.length data.length)
    rw [Nat.add_sub_cancel_left, ← holds.read, ← piece, ← List.length_append] at split
    exact split.symm
  memory := by
    have appended := place_append 0 region 0 got data
    rw [Nat.zero_add, File.place_front, ← holds.memory, File.place_front] at appended
    exact appended

/-- At the head of the loop of `pread_exact`. -/
theorem reading_exactLoop (opened : 0 ≤ file.fd) {memory got : List Byte} {interrupts : Nat}
    (within : got.length ≤ aligned) (holds : Holds content offset region memory got) :
    Filling.Reading kernel strerror file content offset region aligned
      ⟨.exact aligned (file.exactLoop aligned got), memory, interrupts, []⟩ := by
  simp only [File.exactLoop, if_neg (Int.not_lt.mpr opened)]
  split
  · next short => exact .reading short holds
  · next full =>
    have whole : got.length = aligned := Nat.le_antisymm within (Nat.not_lt.mp full)
    exact .read (whole ▸ holds.read) holds

/-- Until the call has returned a step keeps what it has, or returns. -/
theorem Filling.Reading.step (opened : 0 ≤ file.fd) (truthful : Truthful kernel content)
    (patient : ∀ offset length, ¬ kernel offset length (.error eintr))
    (bounded : offset + aligned < 2 ^ 63) {before after : Filling}
    (reading : before.Reading kernel strerror file content offset region aligned)
    (transition : FillStep kernel strerror file sink offset before after) :
    after.Reading kernel strerror file content offset region aligned ∨
      after.Ended kernel strerror file content offset sink region aligned := by
  cases transition with
  | @answered _ got memory interrupts _ answer answers =>
      cases reading with
      | reading short holds =>
          left
          cases answer with
          | error code =>
              have other : code ≠ eintr := fun same => patient _ _ (same ▸ answers)
              simp only [File.exactNext, File.retried, if_neg other]
              exact .failing ⟨short, answers, rfl⟩ holds
          | ok data =>
              have seek : File.callOffset offset got.length = offset + got.length :=
                Nat.mod_eq_of_lt (by omega)
              rw [seek] at answers
              obtain ⟨piece, fits⟩ := truthful.data answers
              have more := holds.received piece
              simp only [File.exactNext, File.retried]
              split
              · next ended =>
                rw [ended] at answers more ⊢
                rw [List.append_nil] at more
                have beyond := (truthful.ends answers).resolve_left (by omega)
                have whole : got = window content offset aligned := by
                  rw [window_split content offset (Nat.le_of_lt short), ← holds.read,
                    window_eq_nil _ beyond, List.append_nil]
                exact .read whole more
              · refine reading_exactLoop opened ?_ more
                rw [List.length_append]
                omega
  | interrupted =>
      cases reading with
      | reading short holds =>
          left
          simp only [File.exactNext, File.retried, if_pos]
          exact .reading short holds
  | failed =>
      cases reading with
      | failing fails holds => exact .inr (.failed _ _ _ rfl fails holds rfl)
  | @committed _ got =>
      cases reading with
      | read whole holds =>
          have length : got.length = min aligned (content.length - offset) := by
            rw [whole, length_window]
          refine .inr (.filled got.length length ?_ ?_ (List.nil_append _))
          · simp only [Sink.committed]
            cases sink.commit got.length <;> rfl
          · rw [← holds.read]
            exact holds.memory

/-- The bytes left to read, the interrupts left and the return. -/
def Filling.rank (filling : Filling) : Nat :=
  match filling.point with
  | .exact aligned (.reading got) => aligned - got.length + filling.interrupts + 2
  | .exact _ (.returned _) => 1
  | .returned _ => 0

/-- The loop has at most as many answers ahead of it as bytes are missing. -/
theorem rank_exactLoop (file : File) (aligned : Nat) (got memory : List Byte)
    (interrupts : Nat) (commits : List Nat) :
    Filling.rank ⟨.exact aligned (file.exactLoop aligned got), memory, interrupts, commits⟩ ≤
      aligned - got.length + interrupts + 2 := by
  simp only [File.exactLoop]
  split
  · split
    · exact Nat.succ_le_succ (Nat.zero_le _)
    · exact Nat.le_refl _
  · exact Nat.succ_le_succ (Nat.zero_le _)

/-- Every step brings the end of the call nearer. -/
theorem FillStep.rank_lt (patient : ∀ offset length, ¬ kernel offset length (.error eintr))
    {before after : Filling}
    (reading : before.Reading kernel strerror file content offset region aligned)
    (transition : FillStep kernel strerror file sink offset before after) :
    after.rank < before.rank := by
  cases transition with
  | @answered _ got memory interrupts _ answer answers =>
      cases reading with
      | reading short =>
          cases answer with
          | error code =>
              have other : code ≠ eintr := fun same => patient _ _ (same ▸ answers)
              simp only [File.exactNext, File.retried, if_neg other, Filling.rank]
              omega
          | ok data =>
              simp only [File.exactNext, File.retried]
              split
              · simp only [Filling.rank]
                omega
              · next some =>
                have more := List.length_pos_iff.mpr some
                refine Nat.lt_of_le_of_lt (rank_exactLoop file aligned _ _ _ _) ?_
                simp only [Filling.rank, List.length_append]
                omega
  | interrupted =>
      simp only [File.exactNext, File.retried, if_pos, Filling.rank]
      omega
  | failed | committed => exact Nat.one_pos

/-- Until the call has returned there is a step. -/
theorem Filling.Reading.progress (total : ∀ offset length, ∃ answer, kernel offset length answer)
    {filling : Filling}
    (reading : filling.Reading kernel strerror file content offset region aligned) :
    ∃ next, FillStep kernel strerror file sink offset filling next := by
  cases reading with
  | @reading got =>
      obtain ⟨answer, answers⟩ := total (File.callOffset offset got.length) (aligned - got.length)
      exact ⟨_, .answered answers⟩
  | read => exact ⟨_, .committed⟩
  | failing => exact ⟨_, .failed⟩

/-- A call that has ended has returned. -/
theorem Filling.Ended.returned {filling : Filling}
    (ended : filling.Ended kernel strerror file content offset sink region aligned) :
    ∃ got, filling.point = .returned got := by
  cases ended with
  | filled _ _ point => exact ⟨_, point⟩
  | failed _ _ _ point => exact ⟨_, point⟩

/-- Every schedule of a read into the front of a region ends. -/
theorem filling_ends (strerror : Nat → String) (opened : 0 ≤ file.fd)
    (truthful : Truthful kernel content)
    (total : ∀ offset length, ∃ answer, kernel offset length answer)
    (patient : ∀ offset length, ¬ kernel offset length (.error eintr))
    (bounded : offset + aligned < 2 ^ 63) (interrupts : Nat) :
    Inevitable (FillStep kernel strerror file sink offset)
      (Filling.Ended kernel strerror file content offset sink region aligned)
      ⟨.exact aligned (file.exactLoop aligned []), region, interrupts, []⟩ := by
  let holds (filling : Filling) : Prop :=
    filling.Reading kernel strerror file content offset region aligned ∨
      filling.Ended kernel strerror file content offset sink region aligned
  have initially : holds ⟨.exact aligned (file.exactLoop aligned []), region, interrupts, []⟩ :=
    .inl (reading_exactLoop opened (Nat.zero_le _) ⟨by simp, by simp⟩)
  refine .ofRank wellFounded_lt Filling.rank (fun {before after} kept transition => ?_)
    (fun filling kept running => ?_) (fun {before after} kept running transition => ?_) initially
  · rcases kept with reading | ended
    · exact reading.step opened truthful patient bounded transition
    · obtain ⟨got, returned⟩ := ended.returned
      cases transition <;> cases returned
  · exact (kept.resolve_right running).progress total
  · exact transition.rank_lt patient (kept.resolve_right running)

/-- Every schedule ends a call of `read_into` on an open file: a region with less than a block
is refused as it is, and any other is filled as far as its whole blocks and the file go and
committed once, unless a read fails. -/
theorem read_into_ends (strerror : Nat → String) (opened : 0 ≤ file.fd)
    (blocks : 0 < file.alignment) (host : sink.kind = .host) (sized : region.length = sink.region)
    (truthful : Truthful kernel content)
    (total : ∀ offset length, ∃ answer, kernel offset length answer)
    (patient : ∀ offset length, ¬ kernel offset length (.error eintr))
    (bounded : offset + region.length < 2 ^ 63) (interrupts : Nat) :
    ∃ point, readInto file sink = some point ∧
      (sink.region < file.alignment → ∃ error, point = .returned (.error error)) ∧
      (file.alignment ≤ sink.region → Inevitable (FillStep kernel strerror file sink offset)
        (Filling.Ended kernel strerror file content offset sink region
          (sink.region - sink.region % file.alignment)) ⟨point, region, interrupts, []⟩) := by
  have onHost : sink.kind ≠ .device := by simp [host]
  have some : file.alignment ≠ 0 := Nat.ne_of_gt blocks
  by_cases less : sink.region < file.alignment
  · have none : sink.region - sink.region % file.alignment = 0 := by
      rw [Nat.mod_eq_of_lt less, Nat.sub_self]
    refine ⟨_, by simp only [readInto, if_neg onHost, if_neg some, if_pos none]; rfl,
      fun _ => ⟨_, rfl⟩, fun enough => absurd less (Nat.not_lt.mpr enough)⟩
  · have below := Nat.mod_lt sink.region blocks
    have whole : sink.region - sink.region % file.alignment ≠ 0 := by omega
    refine ⟨_, by simp only [readInto, if_neg onHost, if_neg some, if_neg whole]; rfl,
      fun few => absurd few less, fun _ => ?_⟩
    exact filling_ends strerror opened truthful total patient (by omega) interrupts

/-- A region of seven bytes, a file of three in blocks of two, and five interrupts: the file is
read, and the region behind it is left alone. -/
theorem threeBytes_read_into : ∃ point, readInto ⟨3, "three", 2⟩ (hostSink 7) = some point ∧
    Inevitable (FillStep (wholeReads [1, 2, 3]) (fun _ => "") ⟨3, "three", 2⟩ (hostSink 7) 0)
      (fun filling => filling.point = .returned (.ok 3) ∧ filling.commits = [3] ∧
        filling.memory = [1, 2, 3, 9, 9, 9, 9])
      ⟨point, List.replicate 7 9, 5, []⟩ := by
  have splits := wholeReads_splits [1, 2, 3]
  have succeeds : ∀ offset length code, ¬ wholeReads [1, 2, 3] offset length (.error code) := by
    rintro offset length code ⟨⟩
  obtain ⟨point, begun, -, ends⟩ := @read_into_ends _ ⟨3, "three", 2⟩ (hostSink 7) _
    (List.replicate 7 9) 0 (fun _ => "") (by decide) (by decide) rfl rfl splits.toTruthful
    splits.total (fun offset length => succeeds offset length eintr) (by decide) 5
  refine ⟨point, begun, (ends (by decide)).weaken trivial (fun _ _ => trivial) ?_⟩
  intro filling _ ended
  cases ended with
  | filled count all point memory commits =>
      have three : count = 3 := all
      subst three
      exact ⟨point, commits, memory⟩
  | failed code error got point fails => exact absurd fails.answers (succeeds _ _ code)

end Dsio.Sink
