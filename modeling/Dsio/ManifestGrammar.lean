import Mathlib.Data.List.ReduceOption
import Dsio.Manifest

/-!
# The grammar of manifests

A grammar of the lines of a manifest that mentions none of the functions of the parser,
and the proof that `load` accepts exactly the manifests all of whose lines are in it.
-/

namespace Dsio

open Delimited

/-! ## Lines -/

/-- A line is this text, but for one carriage return at its end. -/
def Stripped (line text : Text) : Prop :=
  line = text ++ ['\r'] ∨ line = text ∧ text.getLast? ≠ some '\r'

/-- A decimal number below 2^64. -/
structure Numeral (text : Text) (number : Nat) : Prop where
  some : text ≠ []
  digits : ∀ character ∈ text, character.isDigit = true
  value : Nat.ofDigitChars 10 text 0 = number
  bounded : number < 2 ^ 64

/-- What a line stands for: nothing, or a path, an offset and a length. -/
inductive LineGrammar (alignment : Nat) : Text → Option (Path × Nat × Nat) → Prop where
  | blank {line} (stripped : Stripped line []) : LineGrammar alignment line none
  | comment {line rest} (stripped : Stripped line ('#' :: rest)) : LineGrammar alignment line none
  | entry {line path offsetText lengthText offset length}
      (stripped : Stripped line (path ++ '\t' :: (offsetText ++ '\t' :: lengthText)))
      (named : path ≠ []) (uncommented : path.head? ≠ some '#') (oneField : '\t' ∉ path)
      (offsetNumeral : Numeral offsetText offset) (lengthNumeral : Numeral lengthText length)
      (positive : 0 < length) (aligned : alignment ∣ offset) (bounded : offset + length < 2 ^ 64) :
      LineGrammar alignment line (some (path, offset, length))

/-- The shard of a line, its path prefixed by the directory unless it is absolute. -/
def entryShard (directory : Path) : Path × Nat × Nat → Shard
  | (path, offset, length) => ⟨String.ofList (resolve directory path), offset, length⟩

/-- A line is stripped of at most one carriage return. -/
theorem stripped_iff {line text : Text} : Stripped line text ↔ text = chomp line := by
  simp only [Stripped, chomp]
  constructor
  · rintro (rfl | ⟨rfl, plain⟩)
    · rw [if_pos (by simp), List.dropLast_concat]
    · rw [if_neg plain]
  · rintro rfl
    split
    · next returned =>
      left
      obtain ⟨front, rfl⟩ := List.getLast?_eq_some_iff.mp returned
      rw [List.dropLast_concat]
    · next plain => exact .inr ⟨rfl, plain⟩

/-- Numerals have no other character. -/
theorem Numeral.not_mem {text : Text} {number : Nat} (numeral : Numeral text number)
    {character : Char} (other : character.isDigit = false) : character ∉ text := by
  intro member
  rw [numeral.digits _ member] at other
  cases other

/-- What `parse_u64` accepts are the numerals below 2^64. -/
theorem parseU64_eq_some {text : Text} {number : Nat} :
    parseU64 text = some number ↔ Numeral text number := by
  constructor
  · intro parsed
    simp only [parseU64] at parsed
    split at parsed
    · cases parsed
    · next nonempty =>
      split at parsed
      · next value given =>
        simp only [fromChars] at given
        split at given
        · cases given
        · next fits =>
          simp only [Option.some.injEq, Prod.mk.injEq, List.dropWhile_eq_nil_iff] at given parsed
          obtain ⟨rfl, digits⟩ := given
          have all : text.takeWhile Char.isDigit = text := List.takeWhile_eq_self_iff.mpr digits
          rw [all] at fits parsed
          exact ⟨nonempty, digits, parsed, parsed ▸ Nat.not_le.mp (not_or.mp fits).2⟩
      all_goals cases parsed
  · rintro ⟨nonempty, digits, value, bounded⟩
    have all : text.takeWhile Char.isDigit = text := List.takeWhile_eq_self_iff.mpr digits
    have nothing : text.dropWhile Char.isDigit = [] := List.dropWhile_eq_nil_iff.mpr digits
    have fits : ¬ (text = [] ∨ 2 ^ 64 ≤ number) := not_or.mpr ⟨nonempty, Nat.not_le.mpr bounded⟩
    simp only [parseU64, if_neg nonempty, fromChars, all, nothing, value, if_neg fits]

/-- A line splits into three fields at its two tabs. -/
theorem splitLine_iff {line path offset length : Text} :
    splitLine line = some (path, offset, length) ↔
      line = path ++ '\t' :: (offset ++ '\t' :: length) ∧ '\t' ∉ path ∧ '\t' ∉ offset ∧
        '\t' ∉ length := by
  constructor
  · intro splits
    simp only [splitLine] at splits
    split at splits
    · cases splits
    · next before after found =>
      obtain ⟨rfl, clean⟩ := cutAt_eq_some found
      split at splits
      · cases splits
      · next offset length cuts =>
        obtain ⟨rfl, tidy⟩ := cutAt_eq_some cuts
        split at splits
        · cases splits
        · next last =>
          cases splits
          exact ⟨rfl, clean, tidy, last⟩
  · rintro ⟨rfl, first, second, third⟩
    simp only [splitLine, cutAt_append first, cutAt_append second, if_neg third]

/-- The test of `load` for a sum past 64 bits. -/
theorem wraps_iff {offset length : Nat} (offsetBounded : offset < 2 ^ 64)
    (lengthBounded : length < 2 ^ 64) :
    (offset + length) % 2 ^ 64 < offset ↔ 2 ^ 64 ≤ offset + length := by
  rcases Nat.lt_or_ge (offset + length) (2 ^ 64) with fits | wraps
  · rw [Nat.mod_eq_of_lt fits]
    omega
  · rw [Nat.mod_eq_sub_mod wraps, Nat.mod_eq_of_lt (by omega)]
    omega

variable {alignment : Nat} {directory : Path} {line : Text}

/-- A line that stands for nothing. -/
def Skipped (line : Text) : Prop := Stripped line [] ∨ ∃ rest, Stripped line ('#' :: rest)

/-- A line of three fields that pass all checks but those of the alignment and of the sum. -/
inductive Shaped (line : Text) (path : Path) (offset length : Nat) : Prop where
  | fields {offsetText lengthText : Text}
      (stripped : Stripped line (path ++ '\t' :: (offsetText ++ '\t' :: lengthText)))
      (named : path ≠ []) (uncommented : path.head? ≠ some '#') (oneField : '\t' ∉ path)
      (offsetNumeral : Numeral offsetText offset) (lengthNumeral : Numeral lengthText length)
      (positive : 0 < length)

/-- Blank lines and comments give no shard. -/
theorem Skipped.loads (skipped : Skipped line) (alignment : Nat) (directory : Path) :
    loadLine alignment directory line = some (.ok none) := by
  have skips : chomp line = [] ∨ (chomp line).head? = some '#' := by
    rcases skipped with blank | ⟨rest, comment⟩
    · exact .inl (stripped_iff.mp blank).symm
    · exact .inr (by rw [← stripped_iff.mp comment, List.head?_cons])
  simp only [loadLine, if_pos skips]

/-- The checks of the alignment and of the sum, which come last. -/
theorem Shaped.loads {path : Path} {offset length : Nat} (shaped : Shaped line path offset length)
    (alignment : Nat) (directory : Path) : loadLine alignment directory line =
      if alignment = 0 then none
      else if offset % alignment ≠ 0 then
        some (.error ("offset " ++ toString offset ++ " is not a multiple of " ++
          toString alignment))
      else if (offset + length) % 2 ^ 64 < offset then some (.error "offset + length overflows")
      else some (.ok (some (entryShard directory (path, offset, length)))) := by
  obtain ⟨stripped, named, uncommented, oneField, offsetNumeral, lengthNumeral, positive⟩ := shaped
  have body := (stripped_iff.mp stripped).symm
  have splits : splitLine (chomp line) = some (path, _, _) :=
    splitLine_iff.mpr ⟨body, oneField, offsetNumeral.not_mem rfl, lengthNumeral.not_mem rfl⟩
  have parsed : ¬ (chomp line = [] ∨ (chomp line).head? = some '#') := by
    obtain ⟨first, rest, rfl⟩ := List.exists_cons_of_ne_nil named
    rw [body]
    simpa using uncommented
  simp only [loadLine, if_neg parsed, splits, if_neg named, parseU64_eq_some.mpr offsetNumeral,
    parseU64_eq_some.mpr lengthNumeral, if_neg (Nat.pos_iff_ne_zero.mp positive), entryShard]

/-- Blank lines and comments are not lines of a shard. -/
theorem Skipped.not_shaped (skipped : Skipped line) {path : Path} {offset length : Nat} :
    ¬ Shaped line path offset length := by
  intro shaped
  have both := shaped.loads 0 []
  rw [skipped.loads, if_pos rfl] at both
  cases both

/-- Every other line is reported, whatever the alignment. -/
theorem loadLine_shapes (alignment : Nat) (directory : Path) (line : Text) :
    Skipped line ∨ (∃ path offset length, Shaped line path offset length) ∨
      ∃ message, loadLine alignment directory line = some (.error message) := by
  by_cases skipped : chomp line = [] ∨ (chomp line).head? = some '#'
  · left
    rcases skipped with blank | comment
    · exact .inl (stripped_iff.mpr blank.symm)
    · obtain ⟨rest, body⟩ := List.head?_eq_some_iff.mp comment
      exact .inr ⟨rest, stripped_iff.mpr body.symm⟩
  right
  cases splits : splitLine (chomp line) with
  | none =>
      simp only [loadLine, if_neg skipped, splits]
      exact .inr ⟨_, rfl⟩
  | some fields =>
      obtain ⟨path, offsetText, lengthText⟩ := fields
      obtain ⟨body, oneField, -, -⟩ := splitLine_iff.mp splits
      simp only [loadLine, if_neg skipped, splits]
      by_cases named : path = []
      · exact .inr ⟨_, if_pos named⟩
      rw [if_neg named]
      cases offsetParsed : parseU64 offsetText with
      | none => exact .inr ⟨_, rfl⟩
      | some offset =>
          cases lengthParsed : parseU64 lengthText with
          | none => exact .inr ⟨_, rfl⟩
          | some length =>
              by_cases zero : length = 0
              · exact .inr ⟨_, if_pos zero⟩
              have uncommented : path.head? ≠ some '#' := by
                intro starts
                refine skipped (.inr ?_)
                rw [body, List.head?_append, starts, Option.some_or]
              exact .inl ⟨path, offset, length, .fields (stripped_iff.mpr body.symm) named
                uncommented oneField (parseU64_eq_some.mp offsetParsed)
                (parseU64_eq_some.mp lengthParsed) (Nat.pos_of_ne_zero zero)⟩

/-- A line of the grammar loads to what it stands for. -/
theorem LineGrammar.loads (nonzero : 0 < alignment) {entry : Option (Path × Nat × Nat)}
    (grammar : LineGrammar alignment line entry) :
    loadLine alignment directory line = some (.ok (entry.map (entryShard directory))) := by
  cases grammar with
  | blank stripped => exact Skipped.loads (.inl stripped) ..
  | comment stripped => exact Skipped.loads (.inr ⟨_, stripped⟩) ..
  | @entry path offsetText lengthText offset length stripped named uncommented oneField
      offsetNumeral lengthNumeral positive aligned bounded =>
      have shaped : Shaped line path offset length :=
        .fields stripped named uncommented oneField offsetNumeral lengthNumeral positive
      have exact : ¬ (offset + length) % 2 ^ 64 < offset := by
        rw [wraps_iff offsetNumeral.bounded lengthNumeral.bounded]
        exact Nat.not_le.mpr bounded
      have onGrid : ¬ offset % alignment ≠ 0 := fun off => off (Nat.mod_eq_zero_of_dvd aligned)
      rw [shaped.loads, if_neg (Nat.pos_iff_ne_zero.mp nonzero), if_neg onGrid, if_neg exact]
      rfl

/-- Every other line is reported. -/
theorem loadLine_cases (nonzero : 0 < alignment) (directory : Path) (line : Text) :
    (∃ entry, LineGrammar alignment line entry) ∨
      ∃ message, loadLine alignment directory line = some (.error message) := by
  rcases loadLine_shapes alignment directory line with
    (blank | ⟨rest, comment⟩) | ⟨path, offset, length, shaped⟩ | reported
  · exact .inl ⟨none, .blank blank⟩
  · exact .inl ⟨none, .comment comment⟩
  · rw [shaped.loads, if_neg (Nat.pos_iff_ne_zero.mp nonzero)]
    by_cases off : offset % alignment ≠ 0
    · exact .inr ⟨_, if_pos off⟩
    rw [if_neg off]
    by_cases wraps : (offset + length) % 2 ^ 64 < offset
    · exact .inr ⟨_, if_pos wraps⟩
    obtain ⟨stripped, named, uncommented, oneField, offsetNumeral, lengthNumeral, positive⟩ :=
      shaped
    rw [wraps_iff offsetNumeral.bounded lengthNumeral.bounded, Nat.not_le] at wraps
    exact .inl ⟨some (path, offset, length), .entry stripped named uncommented oneField
      offsetNumeral lengthNumeral positive (Nat.dvd_of_mod_eq_zero (not_not.mp off)) wraps⟩
  · exact .inr reported

/-! ## Manifests -/

/-- Every line is in the grammar. -/
def Conforms (alignment : Nat) (lines : List Text) : Prop :=
  ∀ line ∈ lines, ∃ entry, LineGrammar alignment line entry

/-- Behind lines of the grammar the loop goes on with the shards they stand for. -/
theorem loadLines_append (nonzero : 0 < alignment) {lines : List Text}
    {entries : List (Option (Path × Nat × Nat))}
    (grammar : List.Forall₂ (LineGrammar alignment) lines entries) (number : Nat)
    (rest : List Text) (shards : ShardSet) :
    loadLines alignment directory number (lines ++ rest) shards =
      loadLines alignment directory (number + lines.length) rest
        (shards ++ entries.reduceOption.map (entryShard directory)) := by
  induction grammar generalizing number shards with
  | nil => simp
  | @cons line entry lines entries first _ ih =>
      rw [List.cons_append, loadLines, first.loads nonzero]
      dsimp only
      rw [ih, List.length_cons, Nat.add_comm lines.length, ← Nat.add_assoc]
      cases entry <;> simp

/-- Whatever stands for a line is bounded. -/
theorem LineGrammar.bounds {path : Path} {offset length : Nat}
    (grammar : LineGrammar alignment line (some (path, offset, length))) :
    0 < length ∧ alignment ∣ offset ∧ offset + length < 2 ^ 64 := by
  cases grammar with
  | entry _ _ _ _ _ _ positive aligned bounded => exact ⟨positive, aligned, bounded⟩

/-- Each entry is read from a line. -/
theorem exists_line {lines : List Text} {entries : List (Option (Path × Nat × Nat))}
    (grammar : List.Forall₂ (LineGrammar alignment) lines entries)
    {entry : Option (Path × Nat × Nat)} (member : entry ∈ entries) :
    ∃ line ∈ lines, LineGrammar alignment line entry := by
  induction grammar with
  | nil => cases member
  | @cons line first lines entries stands _ ih =>
      rcases List.mem_cons.mp member with rfl | later
      · exact ⟨line, List.mem_cons_self, stands⟩
      · obtain ⟨other, inside, grammar⟩ := ih later
        exact ⟨other, List.mem_cons_of_mem _ inside, grammar⟩

/-- Lines that conform have entries. -/
theorem Conforms.exists_entries {lines : List Text} (conforms : Conforms alignment lines) :
    ∃ entries, List.Forall₂ (LineGrammar alignment) lines entries := by
  induction lines with
  | nil => exact ⟨[], .nil⟩
  | cons line rest ih =>
      rw [Conforms, List.forall_mem_cons] at conforms
      obtain ⟨⟨entry, first⟩, later⟩ := conforms
      obtain ⟨entries, grammar⟩ := ih later
      exact ⟨entry :: entries, .cons first grammar⟩

/-- The first line outside the grammar, if there is one. -/
theorem conforms_or_first (alignment : Nat) (lines : List Text) : Conforms alignment lines ∨
    ∃ before line after, lines = before ++ line :: after ∧ Conforms alignment before ∧
      ¬ ∃ entry, LineGrammar alignment line entry := by
  induction lines with
  | nil => exact .inl (by simp [Conforms])
  | cons first rest ih =>
      by_cases fine : ∃ entry, LineGrammar alignment first entry
      · rcases ih with conforms | ⟨before, line, after, rfl, conforms, wrong⟩
        · exact .inl (List.forall_mem_cons.mpr ⟨fine, conforms⟩)
        · exact .inr ⟨first :: before, line, after, rfl,
            List.forall_mem_cons.mpr ⟨fine, conforms⟩, wrong⟩
      · exact .inr ⟨[], first, rest, rfl, by simp [Conforms], fine⟩

/-- What `load` makes of lines of the grammar. -/
theorem load_of_grammar (nonzero : 0 < alignment) (manifest : String) {text : Text}
    {entries : List (Option (Path × Nat × Nat))}
    (grammar : List.Forall₂ (LineGrammar alignment) (records '\n' text) entries) :
    ShardSet.load manifest alignment (some ⟨text, false⟩) =
      some (.ok (entries.reduceOption.map (entryShard (Path.parent manifest.toList)))) := by
  have loads : loadLines alignment (Path.parent manifest.toList) 0 (records '\n' text) [] =
      some (.ok (entries.reduceOption.map (entryShard (Path.parent manifest.toList)))) := by
    have whole := @loadLines_append alignment (Path.parent manifest.toList) nonzero _ _ grammar
      0 [] []
    rwa [List.append_nil, List.nil_append, loadLines] at whole
  simp [ShardSet.load, loads]

/-- What `load` makes of the first line outside the grammar. -/
theorem load_of_violation (nonzero : 0 < alignment) (manifest : String) {text : Text}
    {before after : List Text} (split : records '\n' text = before ++ line :: after)
    (conforms : Conforms alignment before)
    (wrong : ¬ ∃ entry, LineGrammar alignment line entry) :
    ∃ message, ShardSet.load manifest alignment (some ⟨text, false⟩) =
      some (.error (loadError manifest
        ("line " ++ toString (before.length + 1) ++ ": " ++ message))) := by
  obtain ⟨entries, grammar⟩ := conforms.exists_entries
  obtain ⟨message, reported⟩ :=
    (loadLine_cases nonzero (Path.parent manifest.toList) line).resolve_left wrong
  have fails : loadLines alignment (Path.parent manifest.toList) 0 (records '\n' text) [] =
      some (.error ("line " ++ toString (before.length + 1) ++ ": " ++ message)) := by
    rw [split, loadLines_append nonzero grammar, loadLines, reported, Nat.zero_add]
  exact ⟨message, by simp [ShardSet.load, fails]⟩

/-- `load` accepts exactly the manifests whose lines are all in the grammar: it gives their
shards in the order of the lines, or names the first line that is not in it. -/
theorem load_accepts_grammar (nonzero : 0 < alignment) (manifest : String) (text : Text) :
    ∃ outcome, ShardSet.load manifest alignment (some ⟨text, false⟩) = some outcome ∧
      ((∃ shards, outcome = .ok shards) ↔ Conforms alignment (records '\n' text)) ∧
      (∀ shards, outcome = .ok shards → ∃ entries,
        List.Forall₂ (LineGrammar alignment) (records '\n' text) entries ∧
        shards = entries.reduceOption.map (entryShard (Path.parent manifest.toList))) ∧
      (∀ before line after, records '\n' text = before ++ line :: after →
        Conforms alignment before → (¬ ∃ entry, LineGrammar alignment line entry) →
        ∃ message, outcome = .error (loadError manifest
          ("line " ++ toString (before.length + 1) ++ ": " ++ message))) := by
  rcases conforms_or_first alignment (records '\n' text) with
    conforms | ⟨before, line, after, split, conforms, wrong⟩
  · obtain ⟨entries, grammar⟩ := conforms.exists_entries
    refine ⟨_, load_of_grammar nonzero manifest grammar, ?_, ?_, ?_⟩
    · exact ⟨fun _ => conforms, fun _ => ⟨_, rfl⟩⟩
    · rintro shards ⟨⟩
      exact ⟨entries, grammar, rfl⟩
    · intro before line after split _ wrong
      exact absurd (conforms line (by simp [split])) wrong
  · obtain ⟨message, loads⟩ := load_of_violation nonzero manifest split conforms wrong
    refine ⟨_, loads, ⟨nofun, fun all => ?_⟩, nofun, ?_⟩
    · exact absurd (all line (by simp [split])) wrong
    · intro other bad rest same fine violates
      obtain ⟨reason, again⟩ := load_of_violation nonzero manifest same fine violates
      rw [loads] at again
      exact ⟨reason, Option.some.inj again⟩

/-- A comment, a shard, and a line with a carriage return that lacks its length. -/
theorem third_line_reported : ∃ outcome,
    ShardSet.load "sets/m.tsv" 512 (some ⟨"#\na\t0\t8\nb\t0\r\n".toList, false⟩) = some outcome ∧
      ((∃ shards, outcome = .ok shards) ↔
        Conforms 512 (records '\n' "#\na\t0\t8\nb\t0\r\n".toList)) := by
  obtain ⟨outcome, loads, accepts, -⟩ :=
    load_accepts_grammar (by decide : 0 < 512) "sets/m.tsv" "#\na\t0\t8\nb\t0\r\n".toList
  exact ⟨outcome, loads, accepts⟩

end Dsio
