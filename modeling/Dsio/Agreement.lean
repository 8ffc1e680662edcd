import Mathlib.Algebra.Order.BigOperators.Group.List
import Dsio.Library.Window
import Dsio.Reporting

/-!
# The two backends agree

Over one file, where a read of the same offset and length gives the same whoever asks
for it, both backends report and write what one positional read of every request gives.
`io_uring_prep_read` takes the length as an `unsigned`, so on that backend a request of
4 GiB or more is a read of the remainder; `Whole` says when that makes no difference.
-/

namespace Dsio

open Transition Window

/-- The most one read moves, `MAX_RW_COUNT` of the kernel. -/
def maxRead : Nat := 2 ^ 31 - 4096

/-- A file that does not change, and the offsets at which the device fails. -/
structure Medium where
  content : List Byte
  faults : Nat → Option Nat := fun _ => none
  isErrno : ∀ offset errno, faults offset = some errno → 0 < errno ∧ errno ≠ eintr

/-- `pread` of `length` bytes at `offset`. -/
def Medium.pread (medium : Medium) (offset length : Nat) : Except Nat (List Byte) :=
  if length = 0 then .ok []
  else
    match medium.faults offset with
    | some errno => .error errno
    | none => .ok (window medium.content offset (min length maxRead))

/-- The kernel over this file. -/
def Medium.kernel (medium : Medium) : Kernel :=
  fun offset length answer => answer = medium.pread offset length

/-- The completion of a read with this result. -/
def completionOf (token : Nat) : Except Nat (List Byte) → Completion
  | .ok data => { token, bytes := data.length }
  | .error errno => { token, error := errno }

/-- What one positional read of the whole buffer reports, and what it writes. -/
def Medium.expected (medium : Medium) (request : ReadRequest) : Completion :=
  completionOf request.token (medium.pread request.offset request.dst.size)

def Medium.fills (medium : Medium) (request : ReadRequest) : Span × List Byte :=
  (request.dst, dataOf (medium.pread request.offset request.dst.size))

/-- The length in the entry gives the same read as the size of the buffer: it is the
size, or what it leaves out is beyond the end of the file or what one read moves. -/
def Whole (medium : Medium) (request : ReadRequest) : Prop :=
  request.dst.size < 2 ^ 32 ∨
    match medium.faults request.offset with
    | some _ => request.dst.size % 2 ^ 32 ≠ 0
    | none => maxRead ≤ request.dst.size % 2 ^ 32 ∨
        medium.content.length - request.offset ≤ request.dst.size % 2 ^ 32

variable {medium : Medium}

/-- A read that fails has an errno other than 0 and `EINTR`. -/
theorem Medium.pread_error {offset length errno : Nat}
    (failed : medium.pread offset length = .error errno) :
    0 < errno ∧ errno ≠ eintr := by
  simp only [pread] at failed
  split at failed
  · cases failed
  · split at failed
    · next faulty =>
      cases failed
      exact medium.isErrno _ _ faulty
    · cases failed

/-! ## Truncated lengths -/

/-- What the entry of a request reads. -/
def Medium.truncated (medium : Medium) (request : ReadRequest) : Except Nat (List Byte) :=
  medium.pread request.offset (request.dst.size % 2 ^ 32)

/-- A read that does not fail gets the window, as far as one call goes. -/
theorem Medium.pread_of_healthy {offset : Nat} (healthy : medium.faults offset = none)
    (length : Nat) :
    medium.pread offset length = .ok (window medium.content offset (min length maxRead)) := by
  simp only [pread, healthy]
  split
  · next zero => rw [zero, Nat.zero_min, window_zero]
  · rfl

/-- Below 2^32 bytes a request keeps its length. -/
theorem Whole.truncated_eq {request : ReadRequest} (whole : Whole medium request) :
    medium.truncated request = medium.pread request.offset request.dst.size := by
  rcases whole with small | large
  · rw [Medium.truncated, Nat.mod_eq_of_lt small]
  · by_cases small : request.dst.size < 2 ^ 32
    · rw [Medium.truncated, Nat.mod_eq_of_lt small]
    · cases faulty : medium.faults request.offset with
      | some errno =>
          simp only [faulty] at large
          have some : request.dst.size ≠ 0 := by omega
          simp only [Medium.truncated, Medium.pread, if_neg large, if_neg some, faulty]
      | none =>
          simp only [faulty, maxRead] at large
          rw [Medium.truncated, Medium.pread_of_healthy faulty, Medium.pread_of_healthy faulty,
            ← window_min_available, ← window_min_available _ _ (min request.dst.size maxRead)]
          have same : min (min (request.dst.size % 2 ^ 32) maxRead)
              (medium.content.length - request.offset) =
              min (min request.dst.size maxRead) (medium.content.length - request.offset) := by
            simp only [maxRead]
            omega
          rw [same]

/-- Bytes and errno of a completion together. -/
def Completion.weight (completion : Completion) : Nat := completion.bytes + completion.error

/-- A truncated read reports less, unless the request is whole. -/
theorem weight_truncated_lt {request : ReadRequest} (short : ¬ Whole medium request) :
    (completionOf request.token (medium.truncated request)).weight <
      (medium.expected request).weight := by
  simp only [Whole, not_or] at short
  obtain ⟨large, short⟩ := short
  have some : request.dst.size ≠ 0 := by omega
  cases faulty : medium.faults request.offset with
  | some errno =>
      simp only [faulty, not_not] at short
      have positive := (medium.isErrno _ _ faulty).1
      simp only [Medium.truncated, Medium.expected, Medium.pread, short, if_true, if_neg some,
        faulty, completionOf, Completion.weight, List.length_nil]
      omega
  | none =>
      simp only [faulty, not_or, maxRead] at short
      rw [Medium.truncated, Medium.expected, Medium.pread_of_healthy faulty,
        Medium.pread_of_healthy faulty]
      simp only [completionOf, Completion.weight, length_window, maxRead]
      omega

/-- A truncated request reports no more bytes. -/
theorem weight_truncated_le (request : ReadRequest) :
    (completionOf request.token (medium.truncated request)).weight ≤
      (medium.expected request).weight := by
  by_cases whole : Whole medium request
  · rw [whole.truncated_eq]
    exact Nat.le_refl _
  · exact Nat.le_of_lt (weight_truncated_lt whole)

/-- The completions of truncated reads are those expected only if every request is
whole. -/
theorem whole_of_perm {requests : List ReadRequest}
    (same : (requests.map fun request =>
      completionOf request.token (medium.truncated request)).Perm (requests.map medium.expected)) :
    ∀ request ∈ requests, Whole medium request := by
  by_contra short
  obtain ⟨request, member, short⟩ : ∃ request ∈ requests, ¬ Whole medium request := by
    simpa using short
  have totals := (same.map Completion.weight).sum_nat
  rw [List.map_map, List.map_map] at totals
  have less := List.sum_lt_sum (l := requests) _ _ (fun request _ => weight_truncated_le request)
    ⟨request, member, weight_truncated_lt short⟩
  exact Nat.ne_of_lt less totals

/-! ## Memory -/

/-- A buffer after a read left data at its start. -/
def store (memory : Nat → List Byte) (write : Span × List Byte) : Nat → List Byte := fun address =>
  if address = write.1.address then write.2 ++ (memory address).drop write.2.length
  else memory address

/-- Memory once some writes have been made. -/
def memoryAfter (memory : Nat → List Byte) (writes : List (Span × List Byte)) : Nat → List Byte :=
  writes.foldl store memory

/-- Memory that nothing was written to keeps its content. -/
theorem memoryAfter_other {writes : List (Span × List Byte)} {address : Nat}
    (memory : Nat → List Byte) (other : address ∉ writes.map (·.1.address)) :
    memoryAfter memory writes address = memory address := by
  induction writes generalizing memory with
  | nil => rfl
  | cons write writes ih =>
      rw [List.map_cons, List.mem_cons, not_or] at other
      have rest := ih (store memory write) other.2
      rw [memoryAfter, List.foldl_cons]
      exact rest.trans (if_neg other.1)

/-- In buffers of their own, reads leave their data whatever the order they are done in. -/
theorem memoryAfter_eq {writes : List (Span × List Byte)} {dst : Span} {data : List Byte}
    (memory : Nat → List Byte) (apart : (writes.map (·.1.address)).Nodup)
    (member : (dst, data) ∈ writes) :
    memoryAfter memory writes dst.address = data ++ (memory dst.address).drop data.length := by
  induction writes generalizing memory with
  | nil => cases member
  | cons write writes ih =>
      rw [List.map_cons, List.nodup_cons] at apart
      rw [memoryAfter, List.foldl_cons]
      rcases List.mem_cons.mp member with rfl | later
      · exact (memoryAfter_other _ apart.1).trans (if_pos rfl)
      · have different : dst.address ≠ write.1.address := fun same =>
          apart.1 (same ▸ List.mem_map.mpr ⟨_, later, rfl⟩)
        have rest := ih (store memory write) apart.2 later
        rw [store, if_neg different] at rest
        exact rest

/-- The reads of these requests have been reported and have left their data. -/
def Delivered (medium : Medium) (requests : List ReadRequest) (reported : List Completion)
    (written : List (Span × List Byte)) : Prop :=
  reported.Perm (requests.map medium.expected) ∧
    ∀ memory, ∀ request ∈ requests, memoryAfter memory written request.dst.address =
      (medium.fills request).2 ++ (memory request.dst.address).drop (medium.fills request).2.length

/-- The same reports and writes deliver the same, in any order. -/
theorem delivered_of_perm {requests : List ReadRequest} {reported : List Completion}
    {written : List (Span × List Byte)} (apart : (requests.map (·.dst.address)).Nodup)
    (reports : (requests.map medium.expected).Perm reported)
    (writes : (requests.map medium.fills).Perm written) :
    Delivered medium requests reported written := by
  refine ⟨reports.symm, fun memory request member => ?_⟩
  have addresses : (requests.map (·.dst.address)).Perm (written.map (·.1.address)) := by
    simpa [Medium.fills, Function.comp_def] using writes.map (·.1.address)
  have wrote : medium.fills request ∈ written :=
    writes.mem_iff.mp (List.mem_map.mpr ⟨request, member, rfl⟩)
  exact memoryAfter_eq memory (addresses.nodup_iff.mp apart) wrote

/-! ## The thread backend -/

namespace ThreadBackend

/-- Every accepted request has been written or is still waiting to be read. -/
def Wrote (medium : Medium) (service : Service implementation) : Prop :=
  (service.accepted.map medium.fills).Perm (service.written ++
    (service.backend.pending.filter (·.result.isNone)).map fun future =>
      medium.fills future.request)

/-- The completion of a request is the expected one. -/
theorem readOnce_eq {request : ReadRequest} {answer : Except Nat (List Byte)}
    {completion : Completion} (answers : medium.kernel request.offset request.dst.size answer)
    (once : readOnce request [answer.map List.length] = some completion) :
    completion = medium.expected request := by
  have same : answer = medium.pread request.offset request.dst.size := answers
  rw [Medium.expected, ← same]
  cases answer with
  | ok data =>
      cases once
      rfl
  | error errno =>
      have apart : errno ≠ eintr := (Medium.pread_error same.symm).2
      simp only [Except.map, readOnce, if_neg apart, Option.some.injEq] at once
      exact once.symm

theorem Wrote.step {before after : Service implementation} (wrote : Wrote medium before)
    (transition : Service.Step medium.kernel before after) : Wrote medium after := by
  simp only [Wrote] at wrote ⊢
  cases transition with
  | @submit requests got backend idle submits =>
      simp only [submit] at submits
      split at submits
      · cases submits
        simpa [Service.acceptedOf] using wrote
      · cases submits
        have fresh : (requests.map fun request => ({ request } : Future)).filter
            (·.result.isNone) = requests.map fun request => { request } :=
          List.filter_eq_self.mpr (by simp)
        have grown := wrote.append_right (requests.map medium.fills)
        simpa only [Service.acceptedOf, List.map_append, List.filter_append, fresh, List.map_map,
          List.append_assoc, Function.comp_def] using grown
  | reap => exact wrote
  | finish => exact wrote
  | @move call backend next busy moves =>
      rcases move_cases moves with ⟨pending, -⟩ | ⟨future, completion, found, result, -⟩
      · rw [pending]
        exact wrote
      · simpa [found, result] using wrote
  | serve serves =>
      cases serves with
      | @read index future answer completion found running interruptions answers =>
          obtain ⟨bound, rfl⟩ := List.getElem?_eq_some_iff.mp found
          have read : (before.backend.pending[index].request.dst, dataOf answer) =
              medium.fills before.backend.pending[index].request := by
            rw [Medium.fills, ← (answers : answer = medium.pread _ _)]
          have split := List.take_append_drop index before.backend.pending
          rw [List.drop_eq_getElem_cons bound] at split
          rw [← split] at wrote
          simp only [List.filter_append, List.filter_cons, running, Option.isNone_none, if_true,
            List.map_append, List.map_cons] at wrote
          simp only [finish, List.modify_eq_take_cons_drop bound, List.filter_append,
            List.filter_cons, Option.isNone_some, Bool.false_eq_true, if_false, List.map_append,
            read, List.append_assoc, List.singleton_append]
          exact wrote.trans (List.perm_middle.append_left _)

/-- No reap is in progress and nothing is in flight. -/
def Drained (service : Service implementation) : Prop :=
  service.call = none ∧ service.backend.pending = []

/-- Once drained, the thread backend has done one read of every request. -/
theorem delivered {fd : Int} {depth : Nat} {service : Service implementation}
    (run : Reaches (Service.Step medium.kernel) (opened fd depth) service)
    (drained : Drained service) (apart : (service.accepted.map (·.dst.address)).Nodup) :
    Delivered medium service.accepted service.reported service.written := by
  obtain ⟨idle, nothing⟩ := drained
  have balanced : Balanced medium.expected id service :=
    run.preserves (fun balanced transition => balanced.step
      (fun _ _ _ answers once => readOnce_eq answers once) transition) rfl
  have wrote : Wrote medium service := run.preserves Wrote.step (.refl _)
  simp only [Balanced, outOf, idle, nothing, List.append_nil, List.map_id, List.map_nil]
    at balanced
  simp only [Wrote, nothing, List.filter_nil, List.map_nil, List.append_nil] at wrote
  exact delivered_of_perm apart (.of_eq balanced) wrote

end ThreadBackend

/-! ## The io_uring backend -/

namespace UringBackend

variable {strerror : Nat → String}

/-- A step in which no submit fails late and no reap loses what it took. -/
def Clean (medium : Medium) (before after : Service (implementation strerror)) : Prop :=
  Service.Step medium.kernel before after ∧ ¬ Loses before after

/-- Every accepted request has been written or is still in the ring, as its entry reads. -/
def Wrote (medium : Medium) (service : Service (implementation strerror)) : Prop :=
  (service.accepted.map fun request => (request.dst, dataOf (medium.truncated request))).Perm
    (service.written ++ service.backend.queued.map fun entry =>
      (entry.dst, dataOf (medium.pread entry.offset entry.length)))

/-- A result of the ring gives the completion of its answer. -/
theorem toCompletion_resOf {offset length token : Nat} {answer : Except Nat (List Byte)}
    (answers : medium.kernel offset length answer) :
    toCompletion ⟨token, resOf answer⟩ = completionOf token (medium.pread offset length) := by
  have same : answer = medium.pread offset length := answers
  rw [← same]
  cases answer with
  | ok data =>
      have notNegative : ¬ (data.length : Int) < 0 := by omega
      simp [toCompletion, resOf, completionOf, notNegative]
  | error errno =>
      have negative : -(errno : Int) < 0 := by
        have positive := (Medium.pread_error same.symm).1
        omega
      simp only [toCompletion, resOf, if_pos negative, completionOf, Int.neg_neg, Int.toNat_natCast]

theorem Wrote.step {before after : Service (implementation strerror)}
    (wrote : Wrote medium before) (clean : Clean medium before after) : Wrote medium after := by
  obtain ⟨transition, keeps⟩ := clean
  simp only [Wrote] at wrote ⊢
  cases transition with
  | @submit requests got backend idle submits =>
      obtain ⟨-, queued⟩ := submit_keeps idle submits keeps
      have grown := wrote.append_right ((Service.acceptedOf requests got).map fun request =>
        (request.dst, dataOf (medium.truncated request)))
      rw [queued]
      simpa only [List.map_append, List.append_assoc, List.map_map, Function.comp_def, sqeOf,
        Medium.truncated] using grown
  | reap => exact wrote
  | finish => exact wrote
  | @move call backend next busy moves =>
      rw [(move_cases moves).1]
      exact wrote
  | serve serves =>
      cases serves with
      | @read index entry answer found answers =>
          have taken := (queued_complete (resOf answer) found).map fun entry =>
            (entry.dst, dataOf (medium.pread entry.offset entry.length))
          rw [List.map_cons, ← (answers : answer = medium.pread _ _)] at taken
          refine wrote.trans ?_
          rw [List.append_assoc, List.singleton_append]
          exact taken.append_left _

/-- No reap is in progress and nothing is in flight. -/
def Drained (service : Service (implementation strerror)) : Prop :=
  service.call = none ∧ service.backend.ring.posted = [] ∧ service.backend.queued = []

/-- Once drained, the io_uring backend has done the read of every entry. -/
theorem served {fd : Int} {depth : Nat} {service : Service (implementation strerror)}
    (run : Reaches (Clean medium) (opened strerror fd depth) service) (drained : Drained service) :
    (service.accepted.map fun request =>
        completionOf request.token (medium.truncated request)).Perm service.reported ∧
      (service.accepted.map fun request => (request.dst, dataOf (medium.truncated request))).Perm
        service.written := by
  obtain ⟨idle, posted, queued⟩ := drained
  have balanced : Balanced
      (fun entry => completionOf entry.userData (medium.pread entry.offset entry.length))
      (fun request => completionOf request.token (medium.truncated request)) id service :=
    run.preserves (fun balanced clean => balanced.step (fun _ _ => rfl)
      (fun _ _ answers => toCompletion_resOf answers) clean.1 clean.2) (.refl _)
  have wrote : Wrote medium service := run.preserves Wrote.step (.refl _)
  simp only [Balanced, outOf, idle, posted, queued, List.append_nil, List.map_id, List.map_nil]
    at balanced
  simp only [Wrote, queued, List.map_nil, List.append_nil] at wrote
  exact ⟨balanced, wrote⟩

end UringBackend

/-- Of the same requests into buffers of their own, both backends report and write what
one positional read of the whole buffer gives, exactly when every request is whole; the
thread backend does so always. -/
theorem backends_agree_iff {strerror : Nat → String} {fd : Int} {threadDepth uringDepth : Nat}
    {thread : Service ThreadBackend.implementation}
    {uring : Service (UringBackend.implementation strerror)}
    (threadRun : Reaches (Service.Step medium.kernel) (ThreadBackend.opened fd threadDepth) thread)
    (uringRun : Reaches (UringBackend.Clean medium)
      (UringBackend.opened strerror fd uringDepth) uring)
    (threadDrained : ThreadBackend.Drained thread) (uringDrained : UringBackend.Drained uring)
    (same : uring.accepted.Perm thread.accepted)
    (apart : (thread.accepted.map (·.dst.address)).Nodup) :
    Delivered medium thread.accepted thread.reported thread.written ∧
      (uring.reported.Perm thread.reported ∧
          Delivered medium uring.accepted uring.reported uring.written ↔
        ∀ request ∈ thread.accepted, Whole medium request) := by
  have delivered := ThreadBackend.delivered threadRun threadDrained apart
  obtain ⟨reports, writes⟩ := UringBackend.served uringRun uringDrained
  refine ⟨delivered, ?_, fun whole => ?_⟩
  · rintro ⟨-, reported, -⟩ request member
    exact whole_of_perm (reports.trans reported) request (same.mem_iff.mpr member)
  · have equal : ∀ request ∈ uring.accepted,
        medium.truncated request = medium.pread request.offset request.dst.size :=
      fun request member => (whole request (same.mem_iff.mp member)).truncated_eq
    have expected : (uring.accepted.map fun request =>
        completionOf request.token (medium.truncated request)) =
        uring.accepted.map medium.expected :=
      List.map_congr_left fun request member => by rw [equal request member, Medium.expected]
    have fills : (uring.accepted.map fun request =>
        (request.dst, dataOf (medium.truncated request))) = uring.accepted.map medium.fills :=
      List.map_congr_left fun request member => by rw [equal request member, Medium.fills]
    rw [expected] at reports
    rw [fills] at writes
    have apart' := (same.map (·.dst.address)).nodup_iff.mpr apart
    exact ⟨(reports.symm.trans (same.map medium.expected)).trans delivered.1.symm,
      delivered_of_perm apart' reports writes⟩

/-! ## One request -/

namespace ThreadBackend

/-- A request on its own is read, waited for and taken. -/
theorem reads_one (fd : Int) {request : ReadRequest} {data : List Byte}
    (read : medium.pread request.offset request.dst.size = .ok data) :
    Reaches (Service.Step medium.kernel) (opened fd 1) {
      backend := { fd, depth := 1 }
      accepted := [request]
      reported := [⟨request.token, data.length, 0⟩]
      written := [(request.dst, data)] } := by
  have submits : implementation.submits { fd, depth := 1 } [request] (.ok ())
      { fd, depth := 1, pending := [{ request }] } := rfl
  have serves : Serves medium.kernel { fd, depth := 1, pending := [{ request }] } request.dst data
      { fd, depth := 1, pending := [⟨request, some ⟨request.token, data.length, 0⟩⟩] } :=
    @Serves.read _ _ 0 { request } (.ok data) ⟨request.token, data.length, 0⟩ rfl rfl 0 read.symm
      rfl
  have submitted := Relation.ReflTransGen.single
    (@Service.Step.submit _ medium.kernel (opened fd 1) _ _ _ rfl submits)
  have served := submitted.tail (.serve serves)
  have begun := served.tail (.reap rfl 1 1)
  have waited := begun.tail (.move rfl ⟨.waiting 1, rfl, rfl⟩)
  have draining := waited.tail (.move rfl ⟨.draining [], rfl, rfl⟩)
  have taken := draining.tail (.move rfl ⟨.draining [⟨request.token, data.length, 0⟩], rfl, rfl⟩)
  have returned := taken.tail
    (.move rfl ⟨.returned [⟨request.token, data.length, 0⟩], rfl, rfl⟩)
  have finished := returned.tail
    (@Service.Step.finish _ _ _ _ (.ok [⟨request.token, data.length, 0⟩]) rfl rfl)
  exact finished

end ThreadBackend

namespace UringBackend

variable {strerror : Nat → String}

/-- A step that queues all it accepts is clean. -/
theorem clean_of_calm {before after : Service (implementation strerror)}
    (transition : Service.Step medium.kernel before after)
    (calm : after.accepted ≠ before.accepted ∨
      after.backend.queued.length ≤ before.backend.queued.length)
    (succeeds : ∀ call error, after.call = some call → call.point ≠ .failed error) :
    Clean medium before after := by
  refine ⟨transition, fun loses => ?_⟩
  rcases loses.shows with ⟨same, more⟩ | ⟨call, error, some, failed⟩
  · rcases calm with grown | fewer
    · exact grown same
    · exact Nat.not_lt.mpr fewer more
  · exact succeeds call error some failed

/-- A request on its own is handed over, read as its entry says, and taken. -/
theorem reads_one (strerror : Nat → String) (fd : Int) {request : ReadRequest} {data : List Byte}
    (read : medium.truncated request = .ok data) :
    Reaches (Clean medium) (opened strerror fd 1) {
      backend := { fd, depth := 1 }
      accepted := [request]
      reported := [⟨request.token, data.length, 0⟩]
      written := [(request.dst, data)] } := by
  have submits : (implementation strerror).submits { fd, depth := 1 } [request] (.ok ())
      { fd, depth := 1, inFlight := 1, ring := { executing := [sqeOf fd request] } } :=
    ⟨fun _ => .available, .ok 1, rfl⟩
  have serves : Serves medium.kernel
      { fd, depth := 1, inFlight := 1, ring := { executing := [sqeOf fd request] } }
      request.dst data { fd, depth := 1, inFlight := 1, ring := {
        posted := [⟨request.token, data.length⟩] } } :=
    @Serves.read _ _ 0 (sqeOf fd request) (.ok data) rfl read.symm
  have takes : Moves strerror
      { fd, depth := 1, inFlight := 1, ring := { posted := [⟨request.token, data.length⟩] } }
      ⟨1, 1, .waiting []⟩ { fd, depth := 1 }
      ⟨1, 1, .waiting [toCompletion ⟨request.token, data.length⟩]⟩ := .caller rfl
  have drains : Moves strerror { fd, depth := 1 }
      ⟨1, 1, .waiting [toCompletion ⟨request.token, data.length⟩]⟩ { fd, depth := 1 }
      ⟨1, 1, .returned [toCompletion ⟨request.token, data.length⟩]⟩ := .caller rfl
  have submitted := Relation.ReflTransGen.single (clean_of_calm
    (@Service.Step.submit _ medium.kernel (opened strerror fd 1) _ _ _ rfl submits)
    (.inl (by simp [opened, Service.acceptedOf])) (by simp [opened]))
  have served := submitted.tail (clean_of_calm (.serve serves) (.inr (by simp [queued]))
    (by simp [opened]))
  have begun := served.tail (clean_of_calm (.reap rfl 1 1) (.inr (Nat.le_refl _))
    (by rintro call error ⟨⟩; simp))
  have taken := begun.tail (clean_of_calm (.move rfl takes) (.inr (by simp [queued]))
    (by rintro call error ⟨⟩; simp))
  have returned := taken.tail (clean_of_calm (.move rfl drains) (.inr (by simp [queued]))
    (by rintro call error ⟨⟩; simp))
  have finished := returned.tail (clean_of_calm (@Service.Step.finish _ _ _ _
    (.ok [toCompletion ⟨request.token, data.length⟩]) rfl rfl) (.inr (Nat.le_refl _)) (by simp))
  exact finished

end UringBackend

/-- A file of one byte. -/
def oneByteFile : Medium where
  content := [7]
  isErrno := by simp

/-- A request for the start of a file, into a buffer of this size. -/
def startRequest (size : Nat) : ReadRequest := { offset := 0, dst := ⟨0, size⟩, token := 5 }

/-- The byte is read. -/
theorem oneByteFile_pread {length : Nat} (some : 0 < length) :
    oneByteFile.pread 0 length = .ok [7] := by
  have one : 1 ≤ min length maxRead := by
    simp only [maxRead]
    omega
  rw [Medium.pread_of_healthy rfl]
  exact congrArg Except.ok (List.take_of_length_le one)

/-- Runs in which both backends read the one byte into a one-byte buffer. -/
theorem oneByteRequest_agrees :
    (startRequest 1).dst.size < 2 ^ 32 ∧
      ([⟨5, 1, 0⟩] : List Completion).Perm [⟨5, 1, 0⟩] ∧
      Delivered oneByteFile [startRequest 1] [⟨5, 1, 0⟩] [(⟨0, 1⟩, [7])] := by
  have read : oneByteFile.pread (startRequest 1).offset (startRequest 1).dst.size = .ok [7] :=
    oneByteFile_pread Nat.zero_lt_one
  have entry : oneByteFile.truncated (startRequest 1) = .ok [7] := read
  have agree := (backends_agree_iff (ThreadBackend.reads_one 3 read)
    (UringBackend.reads_one (fun _ => "") 3 entry)
    ⟨rfl, rfl⟩ ⟨rfl, rfl, rfl⟩ (.refl _) (by simp)).2.mpr
    (fun request member => by
      rw [List.mem_singleton.mp member]
      exact .inl (by decide))
  exact ⟨by decide, agree⟩

/-- A buffer of 4 GiB is a read of no bytes to `io_uring`: it reports the end of a file
that the thread backend reads one byte of. -/
theorem largeRequest_differs :
    ¬ ∀ (medium : Medium) (strerror : Nat → String) (fd : Int) (threadDepth uringDepth : Nat)
      (thread : Service ThreadBackend.implementation)
      (uring : Service (UringBackend.implementation strerror)),
      Reaches (Service.Step medium.kernel) (ThreadBackend.opened fd threadDepth) thread →
      Reaches (UringBackend.Clean medium) (UringBackend.opened strerror fd uringDepth) uring →
      ThreadBackend.Drained thread → UringBackend.Drained uring →
      uring.accepted.Perm thread.accepted → (thread.accepted.map (·.dst.address)).Nodup →
      uring.reported.Perm thread.reported ∧
        Delivered medium uring.accepted uring.reported uring.written := by
  intro agrees
  have read : oneByteFile.pread (startRequest (2 ^ 32)).offset (startRequest (2 ^ 32)).dst.size =
      .ok [7] := oneByteFile_pread (by simp [startRequest])
  have entry : oneByteFile.truncated (startRequest (2 ^ 32)) = .ok [] := rfl
  have differ := (agrees oneByteFile (fun _ => "") 3 1 1 _ _ (ThreadBackend.reads_one 3 read)
    (UringBackend.reads_one (fun _ => "") 3 entry) ⟨rfl, rfl⟩ ⟨rfl, rfl, rfl⟩ (.refl _) (by simp)).1
  simp at differ

end Dsio
