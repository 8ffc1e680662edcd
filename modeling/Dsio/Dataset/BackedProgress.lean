import Dsio.Dataset.BackedSteps
import Dsio.Dataset.Streaming
import Mathlib.Data.Prod.Lex

/-!
# The running backend gets on

As long as it has been handed every request, the running backend comes to the next step its
stream can see: reads are done one by one, and a `reap` ends once there is something to
report.
-/

namespace Dsio.Backed

open Transition Window

variable {implementation : Implementation} {environment : Environment}
variable {opens : Int → BackendOptions → Outcome implementation.Backend → Prop}
variable {suits : ReadRequest → Prop}
variable {contract : implementation.Contract opens environment.fails suits}
variable {prompt : contract.Prompt}
variable {taken : List Completion} {backed : Backed implementation} {stream : ShardStream}

/-! ## Every request can be read -/

def Ready (prompt : contract.Prompt) (backed : Backed implementation) : Prop :=
  ∀ backend, backed.backend = some backend → prompt.Ready backend

/-- A call that an error has ended does not go on. -/
def Config.Ready (prompt : contract.Prompt) (config : Config implementation) : Prop :=
  (∀ error, config.point ≠ .returned (.error error)) → Backed.Ready prompt config.backed

/-- Without a backend there is nothing to be ready. -/
theorem ready_closed (prompt : contract.Prompt) (stream : ShardStream) :
    Ready prompt ⟨stream, none⟩ := fun _ isBackend => by cases isBackend

/-- A backend that is ready makes the stream so. -/
theorem ready_some {backend : implementation.Backend} (ready : prompt.Ready backend)
    (stream : ShardStream) : Ready prompt ⟨stream, some backend⟩ := by
  intro other same
  cases same
  exact ready

/-- A read that ends keeps the backend ready. -/
theorem Ready.serve {after : Backed implementation} (ready : Ready prompt backed)
    (serves : Serves environment backed after) : Ready prompt after := by
  cases serves with
  | serve serves => exact ready_some (prompt.served (ready _ rfl) serves) _

/-- A fill keeps the backend ready. -/
theorem Ready.afterFill (ready : Ready prompt backed) (size : Nat) (out : List Byte) :
    (afterFill size out backed).Ready prompt := by
  rw [Backed.afterFill]
  split
  · exact fun _ => ready_closed prompt _
  · exact fun _ => ready

/-- Taking an entry keeps the backend ready. -/
theorem Ready.afterTake {backend : Option implementation.Backend} {before : ShardStream}
    (ready : Ready prompt ⟨before, backend⟩) (entry : Pending) (size : Nat) (out : List Byte)
    (result : List Byte × Nat × ShardStream) :
    (afterTake entry size out backend result).Ready prompt := by
  obtain ⟨copied, left, after⟩ := result
  rw [Backed.afterTake]
  split
  · exact fun _ => ready
  · split
    · exact fun _ => ready_closed prompt _
    · exact fun _ => ready

/-- A backend is ready once it is opened. -/
theorem ready_afterOpen {opening : ShardStream.Opening} {opened : Outcome implementation.Backend}
    (prompt : contract.Prompt) (created : ∀ file, opening.file = .ok file →
      opens file.fd (backendOptions backed.stream) opened) (size : Nat) (out : List Byte) :
    (afterOpen size out backed opened (backed.stream.openShard opening)).Ready prompt := by
  obtain ⟨-, ⟨error, failed, -⟩ | ⟨ok, file, isFile, -⟩⟩ :=
    backed.stream.openShard_backend opening
  · generalize backed.stream.openShard opening = result at failed ⊢
    obtain ⟨outcome, after⟩ := result
    cases failed
    exact fun running => absurd rfl (running error)
  · generalize backed.stream.openShard opening = result at ok ⊢
    obtain ⟨outcome, after⟩ := result
    cases ok
    cases opened with
    | error error => exact fun _ => ready_closed prompt _
    | ok backend => exact fun _ => ready_some (prompt.opened (created file isFile)) _

/-- Until an error ends it, a call keeps the backend able to read every request. -/
theorem Config.Ready.step {before after : Config implementation} (ready : before.Ready prompt)
    (transition : Step environment opens before after) : after.Ready prompt := by
  cases transition with
  | finish => exact fun _ => ready (by simp)
  | openShard room closed more opening opened allowed outcome created =>
      exact ready_afterOpen prompt created _ _
  | @filled backed _ _ filled =>
      have kept : Backed.Ready prompt { backed with stream := filled } := ready (by simp)
      exact kept.afterFill _ _
  | @submit _ _ _ _ _ _ got after _ _ _ _ submits =>
      cases got with
      | ok =>
          have accepted := prompt.accepted (ready (by simp) _ rfl) submits
          exact (ready_some accepted _).afterFill _ _
      | error error => exact fun running => absurd rfl (running error)
  | reap => exact fun _ => ready (by simp)
  | move moves => exact fun _ => ready_some (prompt.moved (ready (by simp) _ rfl) moves).1 _
  | @reaped backed size out call got =>
      generalize awaitReaped got backed.stream = result
      obtain ⟨outcome, after⟩ := result
      cases outcome with
      | ok => exact fun _ => ready (by simp)
      | error error => exact fun running => absurd rfl (running error)
  | take => exact (ready (by simp)).afterTake _ _ _ _
  | serve serves => exact fun running => (ready running).serve serves

/-! ## Hidden steps come to an end -/

/-- The reads still to be done. -/
def unread (contract : implementation.Contract opens environment.fails suits)
    (backed : Backed implementation) : Nat :=
  (backed.backend.map fun backend => (contract.waiting backend).length).getD 0

/-- The steps left of a reap. -/
def reapSteps (prompt : contract.Prompt) (config : Config implementation) : ℕ ×ₗ ℕ :=
  match config.point, config.backed.backend with
  | .reaping _ _ call, some backend => toLex (0, prompt.steps backend call)
  | _, _ => toLex (1, 0)

def rank (prompt : contract.Prompt) (config : Config implementation) : ℕ ×ₗ ℕ ×ₗ ℕ :=
  toLex (unread contract config.backed, reapSteps prompt config)

/-- A read that ends leaves one less to be done. -/
theorem Refines.unread_lt {after : Backed implementation}
    (refines : Refines contract taken backed stream) (serves : Serves environment backed after) :
    unread contract after < unread contract backed := by
  cases serves with
  | serve serves =>
      obtain ⟨-, -, -, served⟩ :=
        contract.served (nonzero_kernel environment _) refines.holds serves
      obtain ⟨request, answer, -, -, -, waits, -⟩ := served.read
      have shorter := waits.length_eq
      simp only [List.length_cons] at shorter
      simp only [unread, Option.map_some, Option.getD_some]
      omega

/-- Each step the stream does not see leaves fewer of them. -/
theorem Matches.rank_lt {before after : Config implementation} {ideal : ShardStream.Config}
    (matched : Matches contract before ideal) (ready : before.Ready prompt)
    (hidden : Hidden environment before after) : rank prompt after < rank prompt before := by
  rw [rank, rank, Prod.Lex.toLex_lt_toLex]
  cases hidden with
  | reap => exact .inr ⟨rfl, by simp [reapSteps, Prod.Lex.toLex_lt_toLex]⟩
  | move moves =>
      cases matched with
      | reaping refines reaping =>
          obtain ⟨-, -, -, waiting, -⟩ := contract.moved refines.holds reaping moves
          obtain ⟨-, fewer⟩ := prompt.moved (ready (by simp) _ rfl) moves
          refine .inr ⟨by simp [unread, waiting], ?_⟩
          simpa [reapSteps, Prod.Lex.toLex_lt_toLex] using fewer
  | serve serves =>
      cases matched with
      | loop refines | await refines | returned refines => exact .inl (refines.unread_lt serves)
      | reaping refines => exact .inl (refines.unread_lt serves)

/-! ## There is a step -/

/-- Reads of the whole length can always be done. -/
theorem kernel_total (full : environment.reports = fullReads) (content : List Byte)
    (offset length : Nat) : ∃ data, environment.kernel content offset length (.ok data) := by
  refine ⟨window content offset length, ?_, ?_⟩
  · rw [length_window]
    simp only [window, List.take_eq_take_iff, List.length_drop]
    omega
  · rw [full, length_window, fullReads, Nat.min_comm]

/-- Whatever class it is of, some backend can be opened. -/
def Openable (opens : Int → BackendOptions → Outcome implementation.Backend → Prop) : Prop :=
  ∀ fd options, 0 < options.queueDepth → ∃ backend, opens fd options (.ok backend)

/-- A shard can always be opened or fail to. -/
theorem exists_openShard (openable : Openable opens) (depth : 0 < backed.stream.readDepth) :
    ∃ opening opened, ShardStream.Opens environment backed.stream opening ∧
      opening.backend = opened.map (fun _ => ()) ∧
      ∀ file, opening.file = .ok file → opens file.fd (backendOptions backed.stream) opened := by
  obtain ⟨opening, path, fresh, failure⟩ :=
    ShardStream.exists_opening environment backed.stream
  have allowed : ShardStream.Opens environment backed.stream { opening with backend := .ok () } :=
    ⟨path, fresh, failure.imp_right fun calls => ⟨calls.1, calls.2.1, rfl⟩⟩
  cases isFile : opening.file with
  | error error =>
      obtain ⟨backend, -⟩ := openable 0 (backendOptions backed.stream) depth
      refine ⟨_, .ok backend, allowed, rfl, fun file same => ?_⟩
      rw [isFile] at same
      cases same
  | ok file =>
      obtain ⟨backend, opened⟩ := openable file.fd (backendOptions backed.stream) depth
      refine ⟨_, .ok backend, allowed, rfl, fun other same => ?_⟩
      rw [isFile] at same
      cases same
      exact opened

/-- The stream has a running backend where the one it refines has a backend. -/
theorem Refines.exists_backend {ideal : Backend} (refines : Refines contract taken backed stream)
    (isBackend : stream.backend = some ideal) : ∃ backend, backed.backend = some backend := by
  have backends := refines.backends
  rw [isBackend] at backends
  generalize backed.backend = held at backends ⊢
  cases backends with
  | opened => exact ⟨_, rfl⟩

/-- Until a read returns there is a step. -/
theorem Matches.progress {config : Config implementation} {ideal : ShardStream.Config}
    (matched : Matches contract config ideal) (ready : config.Ready prompt)
    (sound : ideal.Sound environment.disk) (full : environment.reports = fullReads)
    (openable : Openable opens) (running : ∀ got, config.point ≠ .returned got) :
    ∃ after, Step environment opens config after := by
  cases matched with
  | returned => exact absurd rfl (running _)
  | @loop backed stream size out refines =>
      have opened := ShardStream.Sound.opened sound
      have depth : 0 < stream.readDepth := ShardStream.Sound.depth sound
      have sameDepth : backed.stream.readDepth = stream.readDepth := by
        rw [refines.frame]
        rfl
      by_cases room : out.length < size
      · cases isOpen : backed.stream.isOpen with
        | true =>
            obtain ⟨ideal, isBackend, -⟩ := (opened (refines.isOpen_eq ▸ isOpen)).backend
            obtain ⟨backend, running⟩ := refines.exists_backend isBackend
            obtain ⟨stream, _⟩ := backed
            cases running
            cases fill : ShardStream.fillLoop stream.readDepth stream [] with
            | mk filled requests =>
                cases requests with
                | nil => exact ⟨_, .filled room isOpen fill⟩
                | cons request more =>
                    obtain ⟨got, after, submits⟩ := prompt.submits backend (request :: more)
                    exact ⟨_, .submit room isOpen fill (by simp) submits⟩
        | false =>
            by_cases more : backed.stream.next < backed.stream.order.length
            · obtain ⟨opening, opened, allowed, outcome, created⟩ :=
                @exists_openShard _ environment _ backed openable (sameDepth ▸ depth)
              exact ⟨_, .openShard room isOpen more opening opened allowed outcome created⟩
            · exact ⟨_, .finish (.inr ⟨isOpen, Nat.not_lt.mp more⟩)⟩
      · exact ⟨_, .finish (.inl (Nat.not_lt.mp room))⟩
  | @await backed stream size out refines =>
      obtain ⟨kept, some⟩ := sound
      obtain ⟨entry, rest, pending⟩ := List.exists_cons_of_ne_nil some
      have front : backed.stream.pending.head? = Option.some entry := by
        rw [refines.pending_eq, pending]
        rfl
      cases done : entry.done with
      | true => exact ⟨_, .take front done⟩
      | false =>
          obtain ⟨ideal, isBackend, -⟩ := (kept.opened (kept.isOpen some)).backend
          obtain ⟨backend, running⟩ := refines.exists_backend isBackend
          obtain ⟨stream, _⟩ := backed
          cases running
          exact ⟨_, .reap front done⟩
  | @reaping concrete backend stream size out entry call refines reaping =>
      rcases prompt.progress (kernel_total full (environment.disk.content concrete.file.path))
        (ready (by simp) _ rfl) refines.holds reaping with
        ⟨got, ends⟩ | ⟨after, next, moves⟩ | ⟨dst, data, after, serves⟩
      · exact ⟨_, .reaped ends⟩
      · exact ⟨_, .move moves⟩
      · exact ⟨_, .serve (.serve serves)⟩

end Dsio.Backed
