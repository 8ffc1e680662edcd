import Dsio.ThreadReaping
import Dsio.UringBackend

/-!
# `reap` on the io_uring backend

The waiting loop compares the growing count with `in_flight_`, which shrinks with
every completion it takes, so it stops at half of the requests in flight, rounded
up. What a larger `min` asks for beyond that comes only from completions that are
already posted, and the drain takes at most 64 of those.
-/

namespace Dsio

open Transition

namespace UringBackend

/-- The state in which a call of `reap` starts. -/
def startReap (backend : UringBackend) : Reaping := ⟨backend, .waiting []⟩

/-- The states a backend gets into: opened, and after any submits and reaps, with
ring calls failing or not and the kernel completing requests at any moment. -/
inductive Reachable (strerror : Nat → String) : UringBackend → Prop where
  | opened (fd : Int) (depth : Nat) : Reachable strerror { fd, depth }
  | submitted {backend} (prior : Reachable strerror backend) (answers : Nat → SqeAnswer)
      (submitted : Except Nat Nat) (requests : List ReadRequest) :
      Reachable strerror (submit strerror answers submitted backend requests).2
  | completed {backend index entry} (prior : Reachable strerror backend) (res : Int)
      (found : backend.ring.executing[index]? = some entry) :
      Reachable strerror { backend with ring := complete index entry res backend.ring }
  | reaped {backend size min state} (prior : Reachable strerror backend)
      (run : Reaches (Step strerror (fun _ => True) size (Min.min min size))
        backend.startReap state)
      (ended : reapStep size min state = none) : Reachable strerror state.backend

/-! ## Accounting -/

/-- `in_flight_` counts every entry the backend prepared and did not hand out. -/
def Accounted (backend : UringBackend) : Prop :=
  backend.inFlight =
    backend.ring.prepared.length + backend.ring.executing.length + backend.ring.posted.length

namespace Accounted

variable {backend : UringBackend}

/-- A request that is prepared is counted. -/
theorem prepare (accounted : Accounted backend) (request : ReadRequest) :
    Accounted (backend.prepare request) := by
  simp only [Accounted, UringBackend.prepare, List.length_append, List.length_singleton]
    at accounted ⊢
  omega

/-- What the kernel accepts moves from prepared to executing. -/
theorem flush (accounted : Accounted backend) (accepted : Nat) :
    Accounted (backend.flush accepted) := by
  simp only [Accounted, UringBackend.flush, List.length_append, List.length_take,
    List.length_drop] at accounted ⊢
  omega

/-- All requests that are prepared are counted. -/
theorem prepareAll (accounted : Accounted backend) (strerror : Nat → String)
    (answers : Nat → SqeAnswer) (index : Nat) (requests : List ReadRequest) :
    Accounted (prepareAll strerror answers index requests backend).2 := by
  induction requests generalizing index backend with
  | nil => exact accounted
  | cons request rest ih =>
      simp only [UringBackend.prepareAll]
      split
      · exact ih (accounted.prepare request) _
      · exact accounted
      · exact accounted.flush _
      · exact ih ((accounted.flush _).prepare request) _

/-- `submit` keeps the count. -/
theorem submit (accounted : Accounted backend) (strerror : Nat → String)
    (answers : Nat → SqeAnswer) (submitted : Except Nat Nat) (requests : List ReadRequest) :
    Accounted (submit strerror answers submitted backend requests).2 := by
  have prepared := accounted.prepareAll strerror answers 0 requests
  simp only [UringBackend.submit]
  split
  · exact accounted
  · split
    · next same =>
      rw [same] at prepared
      exact prepared
    · next same =>
      rw [same] at prepared
      split
      · exact prepared
      · exact prepared.flush _

/-- A completion moves from executing to posted. -/
theorem complete (accounted : Accounted backend) {index : Nat} {entry : Sqe} (res : Int)
    (found : backend.ring.executing[index]? = some entry) :
    Accounted { backend with ring := complete index entry res backend.ring } := by
  obtain ⟨bound, -⟩ := List.getElem?_eq_some_iff.mp found
  simp only [Accounted, UringBackend.complete, List.length_append, List.length_singleton,
    List.length_eraseIdx_of_lt bound] at accounted ⊢
  omega

/-- A step of a call of `reap` keeps the count. -/
theorem step {strerror : Nat → String} {failures : Nat → Prop} {size min : Nat}
    {before after : Reaping} (accounted : Accounted before.backend)
    (transition : Step strerror failures size min before after) : Accounted after.backend := by
  obtain ⟨backend, point⟩ := before
  cases transition with
  | kernel res found => exact accounted.complete res found
  | failedWait => exact accounted
  | caller moves =>
      cases point with
      | waiting out =>
          simp only [reapStep] at moves
          split at moves
          · simp only [waitCqe] at moves
            split at moves
            · next posted =>
              cases moves
              simp only [Accounted, posted, List.length_cons] at accounted ⊢
              omega
            · cases moves
          · cases moves
            simp only [Accounted, drain, List.length_drop, drainCount] at accounted ⊢
            omega
      | returned | failed => simp [reapStep] at moves

end Accounted

/-- Whatever was called, the reads in flight are counted. -/
theorem Reachable.accounted {strerror : Nat → String} {backend : UringBackend}
    (reachable : Reachable strerror backend) : Accounted backend := by
  induction reachable with
  | opened => rfl
  | submitted _ answers submitted requests ih => exact ih.submit strerror answers submitted requests
  | completed _ res found ih => exact ih.complete res found
  | reaped _ run ended ih =>
      clear ended
      induction run with
      | refl => exact ih
      | tail _ transition accounted => exact accounted.step transition

/-! ## The waiting loop and the drain -/

/-- The completions of a reap so far. -/
def Point.out : Point → List Completion
  | .waiting out | .returned out => out
  | .failed _ => []

/-- What holds at every point of a `reap` during which no ring call fails. The
call started with `inFlight` requests in flight, `posted` of them completed. -/
structure ReapInv (inFlight posted size min : Nat) (state : Reaping) : Prop where
  submitted : state.backend.ring.prepared = []
  accounted : Accounted state.backend
  total : state.point.out.length + state.backend.inFlight = inFlight
  fits : state.point.out.length ≤ size
  waited : ∀ out, state.point = .waiting out →
    out.length ≤ min ∧ posted ≤ out.length + state.backend.ring.posted.length
  returned : ∀ out, state.point = .returned out → min ≤ out.length ∨
    (inFlight + 1) / 2 ≤ out.length ∧
      (Min.min posted (Min.min size ((inFlight + 1) / 2 + 64)) ≤ out.length)
  noFailure : ∀ error, state.point ≠ .failed error

/-- A call has reported nothing yet. -/
theorem reapInv_start {backend : UringBackend} (accounted : Accounted backend)
    (submitted : backend.ring.prepared = []) (size min : Nat) :
    ReapInv backend.inFlight backend.ring.posted.length size min backend.startReap where
  submitted := submitted
  accounted := accounted
  total := by simp [startReap, Point.out]
  fits := Nat.zero_le _
  waited := by
    rintro out ⟨⟩
    exact ⟨Nat.zero_le _, by simp [startReap]⟩
  returned := by simp [startReap]
  noFailure := by simp [startReap]

/-- The loop ends with `min` completions taken, or with no fewer than are left. -/
theorem waits_eq_false {min : Nat} {backend : UringBackend} {out : List Completion}
    (ends : waits min backend out = false) :
    min ≤ out.length ∨ backend.inFlight ≤ out.length := by
  simp only [waits, Bool.and_eq_false_iff, decide_eq_false_iff_not] at ends
  omega

/-- Every step keeps the reported completions and those left at the number in flight. -/
theorem ReapInv.step {inFlight posted size min : Nat} {strerror : Nat → String}
    {before after : Reaping} (clamped : min ≤ size)
    (inv : ReapInv inFlight posted size min before)
    (transition : Step strerror (fun _ => False) size min before after) :
    ReapInv inFlight posted size min after := by
  have accountedAfter := inv.accounted.step transition
  obtain ⟨submitted, accounted, total, fits, waited, returned, noFailure⟩ := inv
  obtain ⟨backend, point⟩ := before
  dsimp only at submitted accounted total fits waited returned noFailure
  cases transition with
  | failedWait _ _ fails => exact fails.elim
  | kernel res found =>
      refine ⟨submitted, accountedAfter, total, fits, fun out at' => ?_, returned, noFailure⟩
      obtain ⟨bound, kept⟩ := waited out at'
      simp only [complete, List.length_append, List.length_singleton]
      exact ⟨bound, by omega⟩
  | caller moves =>
      cases point with
      | waiting out =>
          obtain ⟨bound, kept⟩ := waited out rfl
          simp only [Accounted, submitted, List.length_nil] at accounted
          simp only [Point.out] at total fits
          simp only [reapStep] at moves
          split at moves
          · next more =>
            simp only [waits, Bool.and_eq_true, decide_eq_true_eq] at more
            simp only [waitCqe] at moves
            split at moves
            · next found =>
              cases moves
              simp only [found, List.length_cons] at accounted kept
              refine ⟨submitted, accountedAfter, ?_, ?_, ?_, by simp, by simp⟩
              · simp only [Point.out, List.length_append, List.length_singleton]
                omega
              · simp only [Point.out, List.length_append, List.length_singleton]
                omega
              · rintro taken ⟨⟩
                simp only [List.length_append, List.length_singleton]
                exact ⟨by omega, by omega⟩
            · cases moves
          · next ends =>
            cases moves
            have stopped := waits_eq_false (Bool.eq_false_iff.mpr ends)
            refine ⟨submitted, accountedAfter, ?_, ?_, by simp [drain], ?_, by simp [drain]⟩
            · simp only [drain, drainCount, Point.out, List.length_append, List.length_map,
                List.length_take]
              omega
            · simp only [drain, drainCount, Point.out, List.length_append, List.length_map,
                List.length_take]
              omega
            · rintro taken ⟨⟩
              simp only [drainCount, List.length_append, List.length_map, List.length_take]
              omega
      | returned | failed => simp [reapStep] at moves

/-- The steps left of a `reap`, the kernel's included. -/
def reapRank (state : Reaping) : Nat :=
  state.backend.ring.executing.length + match state.point with
    | .waiting _ => state.backend.inFlight + 1
    | .returned _ | .failed _ => 0

/-- Every step of a call, while its waits succeed, brings its return nearer. -/
theorem reapRank_lt {strerror : Nat → String} {size min : Nat} {before after : Reaping}
    (transition : Step strerror (fun _ => False) size min before after) :
    reapRank after < reapRank before := by
  obtain ⟨backend, point⟩ := before
  cases transition with
  | failedWait _ _ fails => exact fails.elim
  | kernel res found =>
      obtain ⟨bound, -⟩ := List.getElem?_eq_some_iff.mp found
      dsimp only at bound
      simp only [reapRank, complete, List.length_eraseIdx_of_lt bound]
      omega
  | caller moves =>
      cases point with
      | waiting out =>
          simp only [reapStep] at moves
          split at moves
          · next more =>
            simp only [waits, Bool.and_eq_true, decide_eq_true_eq] at more
            simp only [waitCqe] at moves
            split at moves
            · cases moves
              simp only [reapRank]
              omega
            · cases moves
          · cases moves
            simp only [reapRank, drain]
            omega
      | returned | failed => simp [reapStep] at moves

/-- Either a completion is posted or the kernel can still post one. -/
theorem ReapInv.progress {inFlight posted size min : Nat} {strerror : Nat → String}
    {state : Reaping} (inv : ReapInv inFlight posted size min state)
    (unfinished : ¬ ∃ out, state.point = .returned out) :
    ∃ after, Step strerror (fun _ => False) size min state after := by
  obtain ⟨backend, point⟩ := state
  cases point with
  | returned out => exact absurd ⟨out, rfl⟩ unfinished
  | failed error => exact absurd rfl (inv.noFailure error)
  | waiting out =>
      by_cases more : waits min backend out
      · cases posted : backend.ring.posted with
        | cons cqe rest =>
            exact ⟨_, .caller (by simp only [reapStep, more, waitCqe, posted]; rfl)⟩
        | nil =>
            have submitted : backend.ring.prepared = [] := inv.submitted
            have accounted : Accounted backend := inv.accounted
            simp only [Accounted, submitted, posted, List.length_nil] at accounted
            simp only [waits, Bool.and_eq_true, decide_eq_true_eq] at more
            have bound : 0 < backend.ring.executing.length := by omega
            exact ⟨_, .kernel 0 (List.getElem?_eq_getElem bound)⟩
      · exact ⟨_, .caller (by simp only [reapStep, more]; rfl)⟩

/-- Every schedule of `reap(out, min)` in which no ring call fails returns, with the
contract kept. -/
def KeepsContract (strerror : Nat → String) (backend : UringBackend) (size min : Nat) : Prop :=
  let step := Step strerror (fun _ => False) size (Min.min min size)
  (∀ state out, Reaches step backend.startReap state → state.point = .returned out →
    ReapContract backend.inFlight size min out.length state.backend.inFlight) ∧
  Inevitable step (fun state => ∃ out, state.point = .returned out) backend.startReap

/-- What `min` asks for, clamped, is at most half of the requests in flight, rounded
up, or it is already posted and at most 64 beyond that half. -/
def Covered (backend : UringBackend) (size min : Nat) : Prop :=
  let asked := Min.min (Min.min min size) backend.inFlight
  let half := (backend.inFlight + 1) / 2
  asked ≤ half ∨ asked ≤ backend.ring.posted.length ∧ asked ≤ half + 64

/-- The contract is kept where the completions posted cover it. -/
theorem keepsContract_of_covered {strerror : Nat → String} {backend : UringBackend}
    {size min : Nat} (accounted : Accounted backend) (submitted : backend.ring.prepared = [])
    (covered : Covered backend size min) : KeepsContract strerror backend size min := by
  have clamped : Min.min min size ≤ size := Nat.min_le_right _ _
  have start := reapInv_start accounted submitted size (Min.min min size)
  constructor
  · intro state out run returned
    have inv := run.preserves (fun inv transition => inv.step clamped transition) start
    have total := inv.total
    have fits := inv.fits
    have enough := inv.returned out returned
    rw [returned, Point.out] at total fits
    simp only [Covered] at covered
    exact ⟨by omega, by omega, by omega⟩
  · exact .ofRank wellFounded_lt reapRank (fun inv transition => inv.step clamped transition)
      (fun state inv unfinished => inv.progress unfinished)
      (fun _ _ transition => reapRank_lt transition) start

/-! ## A schedule that returns early -/

/-- One round of the waiting loop when the kernel completes a request only if the
loop would otherwise block. -/
theorem lazy_round (strerror : Nat → String) (size : Nat) {min : Nat} {backend : UringBackend}
    {out : List Completion} (accounted : Accounted backend)
    (submitted : backend.ring.prepared = []) (more : waits min backend out) :
    ∃ (next : UringBackend) (completion : Completion),
      Reaches (Step strerror (fun _ => False) size min)
        ⟨backend, .waiting out⟩ ⟨next, .waiting (out ++ [completion])⟩ ∧
      next.ring.posted.length = backend.ring.posted.length - 1 ∧
      next.inFlight = backend.inFlight - 1 ∧ next.ring.prepared = [] ∧ Accounted next := by
  cases posted : backend.ring.posted with
  | cons cqe rest =>
      have taken : Step strerror (fun _ => False) size min ⟨backend, .waiting out⟩
          ⟨{ backend with
            inFlight := backend.inFlight - 1, ring := { backend.ring with posted := rest } },
            .waiting (out ++ [toCompletion cqe])⟩ :=
        .caller (by simp only [reapStep, more, waitCqe, posted]; rfl)
      exact ⟨_, _, .single taken, by simp, rfl, submitted, accounted.step taken⟩
  | nil =>
      have counted := accounted
      simp only [Accounted, submitted, posted, List.length_nil] at counted
      have loops := more
      simp only [waits, Bool.and_eq_true, decide_eq_true_eq] at loops
      have bound : 0 < backend.ring.executing.length := by omega
      have completes : Step strerror (fun _ => False) size min ⟨backend, .waiting out⟩
          ⟨{ backend with ring := complete 0 backend.ring.executing[0] 0 backend.ring },
            .waiting out⟩ :=
        .kernel 0 (List.getElem?_eq_getElem bound)
      have taken : Step strerror (fun _ => False) size min
          ⟨{ backend with ring := complete 0 backend.ring.executing[0] 0 backend.ring },
            .waiting out⟩
          ⟨{ backend with
            inFlight := backend.inFlight - 1
            ring := { complete 0 backend.ring.executing[0] 0 backend.ring with posted := [] } },
            .waiting (out ++ [toCompletion ⟨backend.ring.executing[0].userData, 0⟩])⟩ :=
        .caller (by
          have same : waits min { backend with
              ring := complete 0 backend.ring.executing[0] 0 backend.ring } out = true := more
          simp only [reapStep, same]
          simp only [waitCqe, complete, posted]
          rfl)
      exact ⟨_, _, .tail (.single completes) taken, by simp, rfl, submitted,
        (accounted.step completes).step taken⟩

/-- As many lazy rounds as the loop condition allows. -/
theorem lazy_rounds (strerror : Nat → String) (size : Nat) {min : Nat} (rounds : Nat)
    {backend : UringBackend} {out : List Completion} (accounted : Accounted backend)
    (submitted : backend.ring.prepared = []) (wanted : out.length + rounds ≤ min)
    (inFlight : out.length + 2 * rounds ≤ backend.inFlight + 1) :
    ∃ (last : UringBackend) (taken : List Completion),
      Reaches (Step strerror (fun _ => False) size min)
        ⟨backend, .waiting out⟩ ⟨last, .waiting taken⟩ ∧
      taken.length = out.length + rounds ∧
      last.ring.posted.length = backend.ring.posted.length - rounds ∧
      last.inFlight = backend.inFlight - rounds := by
  induction rounds generalizing backend out with
  | zero => exact ⟨backend, out, .refl, rfl, rfl, rfl⟩
  | succ rounds ih =>
      have more : waits min backend out := by
        simp only [waits, Bool.and_eq_true, decide_eq_true_eq]
        omega
      obtain ⟨next, completion, round, posted, left, nextSubmitted, nextAccounted⟩ :=
        lazy_round strerror size accounted submitted more
      have wantedNext : (out ++ [completion]).length + rounds ≤ min := by
        simp only [List.length_append, List.length_singleton]
        omega
      have inFlightNext : (out ++ [completion]).length + 2 * rounds ≤ next.inFlight + 1 := by
        simp only [List.length_append, List.length_singleton]
        omega
      obtain ⟨last, taken, run, length, lastPosted, lastLeft⟩ :=
        ih nextAccounted nextSubmitted wantedNext inFlightNext
      simp only [List.length_append, List.length_singleton] at length
      exact ⟨last, taken, round.trans run, by omega, by omega, by omega⟩

/-- A call that asks for more than is covered returns too early on the lazy schedule. -/
theorem covered_of_keepsContract {strerror : Nat → String} {backend : UringBackend}
    {size min : Nat} (accounted : Accounted backend) (submitted : backend.ring.prepared = [])
    (keeps : KeepsContract strerror backend size min) : Covered backend size min := by
  simp only [Covered]
  by_contra uncovered
  have beyond : (backend.inFlight + 1) / 2 < Min.min (Min.min min size) backend.inFlight := by
    omega
  have wanted : ([] : List Completion).length + (backend.inFlight + 1) / 2 ≤ Min.min min size := by
    simp only [List.length_nil]
    omega
  have inFlight : ([] : List Completion).length + 2 * ((backend.inFlight + 1) / 2) ≤
      backend.inFlight + 1 := by
    simp only [List.length_nil]
    omega
  obtain ⟨last, taken, run, length, posted, left⟩ :=
    lazy_rounds strerror size ((backend.inFlight + 1) / 2) accounted submitted wanted inFlight
  simp only [List.length_nil, Nat.zero_add] at length
  have ends : waits (Min.min min size) last taken = false := by
    simp only [waits, Bool.and_eq_false_iff, decide_eq_false_iff_not]
    omega
  have drains : Step strerror (fun _ => False) size (Min.min min size) ⟨last, .waiting taken⟩
      (drain size last taken) :=
    .caller (by simp only [reapStep, ends]; rfl)
  have contract := keeps.1 _ _ (run.tail drains) rfl
  have enough := contract.enough
  simp only [List.length_append, List.length_map, List.length_take, drainCount] at enough
  omega

/-- Two reads handed to the kernel, neither of them completed. -/
def twoInFlight : UringBackend :=
  (submit (fun _ => "") (fun _ => .available) (.ok 2) { fd := 3, depth := 2 }
    [⟨0, ⟨4096, 512⟩, 0⟩, ⟨512, ⟨8192, 512⟩, 1⟩]).2

/-- Two reads are submitted and one is done. -/
theorem twoInFlight_reachable : Reachable (fun _ => "") twoInFlight :=
  .submitted (.opened 3 2) _ _ _

end UringBackend

/-- Whatever the timing, a `reap` on the thread backend keeps its contract, and one on
the io_uring backend does so exactly when its `min` is covered. -/
theorem reap_contract (thread : ThreadBackend) {strerror : Nat → String} {uring : UringBackend}
    (reachable : UringBackend.Reachable strerror uring) (submitted : uring.ring.prepared = [])
    (size min : Nat) :
    thread.KeepsContract size min ∧
      (UringBackend.KeepsContract strerror uring size min ↔ uring.Covered size min) :=
  ⟨thread.keepsContract size min,
    UringBackend.covered_of_keepsContract reachable.accounted submitted,
    UringBackend.keepsContract_of_covered reachable.accounted submitted⟩

/-- A call for one of them keeps the contract. -/
theorem reap_contract_one_of_two :
    UringBackend.KeepsContract (fun _ => "") UringBackend.twoInFlight 2 1 :=
  (reap_contract { fd := 3, depth := 2 } UringBackend.twoInFlight_reachable rfl 2 1).2.mpr
    (.inl (by decide))

/-- With two reads in flight, `reap` of both can return with one. -/
theorem reap_returns_early :
    ¬ ∀ (strerror : Nat → String) (thread : ThreadBackend) (uring : UringBackend),
      UringBackend.Reachable strerror uring → uring.ring.prepared = [] → ∀ size min,
        thread.KeepsContract size min ∧ UringBackend.KeepsContract strerror uring size min := by
  intro always
  have keeps := (always _ { fd := 3, depth := 2 } _ UringBackend.twoInFlight_reachable rfl 2 2).2
  have covered := UringBackend.covered_of_keepsContract
    UringBackend.twoInFlight_reachable.accounted rfl keeps
  revert covered
  simp only [UringBackend.Covered]
  decide

end Dsio
