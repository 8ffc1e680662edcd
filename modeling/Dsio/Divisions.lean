import Dsio.FileObjects
import Dsio.ManifestGrammar

/-!
# Divisions

`read_into` divides by the alignment of the file and `load` by its argument. When they do
so by 0: on a `File` that holds nothing an `open` gave, and at the first shard of a
manifest that is loaded with an alignment of 0.
-/

namespace Dsio

open Delimited Moving

/-! ## Reading into a sink -/

namespace Sink

/-- `read_into` has failed, before its read or in it. -/
def Point.Failed (point : Point) : Prop :=
  ∃ error, point = .returned (.error error) ∨
    ∃ aligned, point = .exact aligned (.returned (.error error))

/-- Whether `read_into` has a result, and an error where there is no descriptor. -/
theorem readInto_defined_iff (file : File) (sink : Sink) :
    (∃ point, readInto file sink = some point ∧ (file.fd < 0 → point.Failed)) ↔
      sink.kind = .device ∨ file.alignment ≠ 0 := by
  constructor
  · rintro ⟨point, defined, -⟩
    by_contra neither
    obtain ⟨host, zero⟩ := not_or.mp neither
    have kind : sink.kind = .host := by
      cases same : sink.kind with
      | host => rfl
      | device => exact absurd same host
    rw [readInto_eq_none.mpr ⟨kind, not_not.mp zero⟩] at defined
    cases defined
  · intro either
    have defined : readInto file sink ≠ none := by
      intro failed
      obtain ⟨host, zero⟩ := readInto_eq_none.mp failed
      rcases either with device | nonzero
      · rw [host] at device
        cases device
      · exact nonzero zero
    obtain ⟨point, begun⟩ := Option.ne_none_iff_exists'.mp defined
    refine ⟨point, begun, fun closed => ?_⟩
    cases point with
    | exact aligned point =>
        obtain ⟨-, some, rfl⟩ := readInto_exact begun
        refine ⟨File.closedError "pread", .inr ⟨aligned, ?_⟩⟩
        simp only [File.exactLoop, List.length_nil, if_pos some, if_pos closed]
    | returned got =>
        obtain ⟨error, rfl⟩ := readInto_returned begun
        exact ⟨error, .inl rfl⟩

end Sink

/-! ## Loading a manifest -/

/-- The first of these lines that stands for something stands for a shard but for what its
alignment and its sum decide: `load` reaches its division. -/
inductive Divides : List Text → Prop where
  | here {line rest path offset length} (shaped : Shaped line path offset length) :
      Divides (line :: rest)
  | later {line rest} (skipped : Skipped line) (divides : Divides rest) : Divides (line :: rest)

/-- With a nonzero alignment no line divides by zero. -/
theorem loadLines_ne_none {alignment : Nat} (nonzero : 0 < alignment) (directory : Path)
    (lines : List Text) (number : Nat) (shards : ShardSet) :
    loadLines alignment directory number lines shards ≠ none := by
  induction lines generalizing number shards with
  | nil => simp [loadLines]
  | cons line rest ih =>
      rw [loadLines]
      rcases loadLine_cases nonzero directory line with ⟨entry, grammar⟩ | ⟨message, reported⟩
      · rw [grammar.loads nonzero]
        exact ih _ _
      · rw [reported]
        exact Option.some_ne_none _

/-- With an alignment of 0 the loop divides exactly when its lines bring it there. -/
theorem loadLines_zero_iff (directory : Path) (lines : List Text) (number : Nat)
    (shards : ShardSet) : loadLines 0 directory number lines shards = none ↔ Divides lines := by
  induction lines generalizing number shards with
  | nil =>
      rw [loadLines]
      constructor
      · intro divided
        cases divided
      · intro divides
        cases divides
  | cons line rest ih =>
      rw [loadLines]
      rcases loadLine_shapes 0 directory line with
        skipped | ⟨path, offset, length, shaped⟩ | ⟨message, reported⟩
      · rw [skipped.loads]
        dsimp only
        rw [ih]
        refine ⟨.later skipped, fun divides => ?_⟩
        cases divides with
        | here shaped => exact absurd shaped skipped.not_shaped
        | later _ divides => exact divides
      · rw [shaped.loads, if_pos rfl]
        exact ⟨fun _ => .here shaped, fun _ => rfl⟩
      · rw [reported]
        constructor
        · intro divided
          cases divided
        · intro divides
          cases divides with
          | here shaped =>
              rw [shaped.loads, if_pos rfl] at reported
              cases reported
          | later skipped _ =>
              rw [skipped.loads] at reported
              cases reported

/-- When `load` divides by zero. -/
theorem load_eq_none (manifest : String) (alignment : Nat) (opened : Option InStream) :
    ShardSet.load manifest alignment opened = none ↔
      alignment = 0 ∧ ∃ input, opened = some input ∧ Divides input.lines := by
  cases opened with
  | none => simp [ShardSet.load]
  | some input =>
      have loop : ShardSet.load manifest alignment (some input) = none ↔
          loadLines alignment (Path.parent manifest.toList) 0 input.lines [] =
            none := by
        simp only [ShardSet.load]
        cases loadLines alignment (Path.parent manifest.toList) 0 input.lines [] with
        | none => simp
        | some got => cases got <;> simp
      rw [loop]
      rcases Nat.eq_zero_or_pos alignment with rfl | nonzero
      · rw [loadLines_zero_iff]
        simp
      · have defined := loadLines_ne_none nonzero (Path.parent manifest.toList)
          input.lines 0 []
        constructor
        · exact fun divided => absurd divided defined
        · rintro ⟨zero, -⟩
          exact absurd zero (Nat.pos_iff_ne_zero.mp nonzero)

/-! ## Both -/

/-- `read_into` gives an outcome, and an error without a descriptor, exactly for a device
sink or a `File` that holds what an `open` gave. `load` gives one exactly with a nonzero
alignment or when the lines `getline` gives do not bring it to its division. -/
theorem no_zero_division_iff {history : List (Op FileOrigin FileAction)}
    (positive : PositiveBlocks history) :
    (∀ index file, (run files history).held index = some file → ∀ sink : Sink,
      (∃ point, Sink.readInto file sink = some point ∧ (file.fd < 0 → point.Failed)) ↔
        sink.kind = .device ∨ (run holdings history).held index = some true) ∧
    ∀ manifest alignment opened,
      (∃ outcome, ShardSet.load manifest alignment opened = some outcome) ↔
        alignment ≠ 0 ∨ ∀ input, opened = some input → ¬ Divides input.lines := by
  constructor
  · intro index file held sink
    rw [Sink.readInto_defined_iff, aligned_iff_holds positive held]
  · intro manifest alignment opened
    rw [← Option.ne_none_iff_exists', ne_eq, load_eq_none, not_and_or, not_exists]
    simp only [not_and, ne_eq]

/-- An object that is moved from, and the one it is moved to. -/
def movedHistory : List (Op FileOrigin FileAction) :=
  [.create (.opened 3 "data" 512), .moveConstruct 0, .act 1 .close]

/-- The block sizes of the history are positive. -/
theorem movedHistory_positive : PositiveBlocks movedHistory := by
  intro fd path alignment created
  simp only [movedHistory, List.mem_cons, reduceCtorEq, Op.create.injEq, FileOrigin.opened.injEq,
    List.not_mem_nil, or_false] at created
  omega

/-- The object moved to gives an error after its close, and so does a manifest whose only
line a failed read breaks off, even with an alignment of 0. -/
theorem closed_read_defined :
    (∃ point, Sink.readInto ⟨-1, "data", 512⟩ (hostSink 4096) = some point ∧ point.Failed) ∧
      ∃ outcome, ShardSet.load "m.tsv" 0 (some ⟨"a\t0\t1".toList, true⟩) = some outcome := by
  obtain ⟨reads, loads⟩ := no_zero_division_iff movedHistory_positive
  constructor
  · obtain ⟨point, begun, fails⟩ :=
      (reads 1 ⟨-1, "data", 512⟩ rfl (hostSink 4096)).mpr (.inr rfl)
    exact ⟨point, begun, fails (by decide)⟩
  · refine (loads "m.tsv" 0 (some ⟨"a\t0\t1".toList, true⟩)).mpr (.inr ?_)
    rintro _ ⟨⟩ divides
    cases divides

/-- The object moved from divides by zero, and so does an alignment of 0. -/
theorem moved_from_divides :
    (¬ ∀ history, PositiveBlocks history → ∀ index file,
      (run files history).held index = some file → ∀ sink : Sink,
        ∃ point, Sink.readInto file sink = some point) ∧
    ¬ ∀ manifest alignment opened, ∃ outcome,
      ShardSet.load manifest alignment opened = some outcome := by
  constructor
  · intro always
    obtain ⟨point, defined⟩ := always movedHistory movedHistory_positive 0 {} rfl (hostSink 4096)
    cases defined
  · intro always
    obtain ⟨outcome, loads⟩ := always "m.tsv" 0 (some ⟨"a\t0\t1\n".toList, false⟩)
    have divides : ShardSet.load "m.tsv" 0 (some ⟨"a\t0\t1\n".toList, false⟩) = none := by decide
    rw [divides] at loads
    cases loads

end Dsio
