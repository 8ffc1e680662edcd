import Dsio.ManifestGrammar

/-!
# Saving and loading a manifest

What `save` writes, `load` reads back line by line. A path that starts with `#` makes its
line a comment, and `save` looks for tabs and newlines in the path of the shard but not in
the one it writes; `Writable` leaves these paths out.
-/

namespace Dsio

open Delimited Output

/-! ## Numbers -/

/-- Decimals are written in digits. -/
theorem isDigit_of_mem_decimal {number : Nat} {character : Char}
    (member : character ∈ decimal number) : character.isDigit = true :=
  Nat.isDigit_of_mem_toDigits (by decide) (by decide) member

/-- Decimals have no other character. -/
theorem not_mem_decimal {number : Nat} {character : Char} (other : character.isDigit = false) :
    character ∉ decimal number := by
  intro member
  rw [isDigit_of_mem_decimal member] at other
  cases other

/-- A printed number is read back. -/
theorem parseU64_decimal {number : Nat} (bounded : number < 2 ^ 64) :
    parseU64 (decimal number) = some number :=
  parseU64_eq_some.mpr ⟨Nat.toDigits_ne_nil, fun _ member => isDigit_of_mem_decimal member,
    Nat.ofDigitChars_ten_toDigits, bounded⟩

/-! ## Lines -/

/-- A line that `save` wrote splits into its three fields. -/
theorem splitLine_fields {path : Path} (clean : '\t' ∉ path) (shard : Shard) :
    splitLine (fields path shard) =
      some (path, decimal shard.offset, decimal shard.length) :=
  splitLine_iff.mpr ⟨rfl, clean, not_mem_decimal rfl, not_mem_decimal rfl⟩

/-- The line of a shard ends with a digit. -/
theorem chomp_fields (path : Path) (shard : Shard) :
    chomp (fields path shard) = fields path shard := by
  have front : fields path shard =
      (path ++ '\t' :: (decimal shard.offset ++ ['\t'])) ++ decimal shard.length := by
    simp [fields]
  have ends : (fields path shard).getLast? = (decimal shard.length).getLast? := by
    rw [front]
    exact List.getLast?_append_of_ne_nil _ Nat.toDigits_ne_nil
  have digit : (decimal shard.length).getLast? ≠ some '\r' := fun same =>
    not_mem_decimal rfl (List.mem_of_getLast? same)
  rw [chomp, ends, if_neg digit]

/-- A line that `save` wrote loads as the shard at the path written. -/
theorem loadLine_fields {alignment : Nat} {path : Path} {shard : Shard} (directory : Path)
    (nonempty : path ≠ []) (clean : '\t' ∉ path) (notComment : path.head? ≠ some '#')
    (positive : 0 < shard.length) (divides : alignment ∣ shard.offset)
    (noOverflow : shard.NoOverflow) :
    loadLine alignment directory (fields path shard) = if alignment = 0 then none
      else some (.ok (some { shard with path := String.ofList (resolve directory path) })) := by
  simp only [Shard.NoOverflow] at noOverflow
  obtain ⟨first, rest, rfl⟩ := List.exists_cons_of_ne_nil nonempty
  have parsed : ¬ (fields (first :: rest) shard = [] ∨
      (fields (first :: rest) shard).head? = some '#') := by
    simpa [fields] using notComment
  have offset : parseU64 (decimal shard.offset) = some shard.offset :=
    parseU64_decimal (by omega)
  have length : parseU64 (decimal shard.length) = some shard.length :=
    parseU64_decimal (by omega)
  have some : ¬ shard.length = 0 := Nat.pos_iff_ne_zero.mp positive
  have aligned : ¬ shard.offset % alignment ≠ 0 := fun off =>
    off (Nat.mod_eq_zero_of_dvd divides)
  have exact : ¬ (shard.offset + shard.length) % 2 ^ 64 < shard.offset := by
    rw [Nat.mod_eq_of_lt noOverflow]
    omega
  simp only [loadLine, chomp_fields, if_neg parsed, splitLine_fields clean, if_neg nonempty, offset,
    length, if_neg some, if_neg aligned, if_neg exact]

/-- A comment is skipped. -/
theorem loadLine_comment {line : Text} (alignment : Nat) (directory : Path)
    (same : chomp line = line) (comment : line.head? = some '#') :
    loadLine alignment directory line = some (.ok none) := by
  simp only [loadLine, same, comment, or_true, if_true]

/-- `chomp` adds no character. -/
theorem chomp_subset (line : Text) : chomp line ⊆ line := by
  simp only [chomp]
  split
  · exact (List.dropLast_prefix line).subset
  · exact List.Subset.refl _

/-- A shard that a line gives has a path from that line. -/
theorem loadLine_path {alignment : Nat} {directory : Path} {line : Text} {shard : Shard}
    (clean : '\n' ∉ line) (loaded : loadLine alignment directory line = some (.ok (some shard))) :
    ∃ path : Path, shard.path = String.ofList (resolve directory path) ∧ '\t' ∉ path ∧
      '\n' ∉ path := by
  simp only [loadLine] at loaded
  split at loaded
  · cases loaded
  · split at loaded
    · cases loaded
    · next path offsetText lengthText splits =>
      obtain ⟨body, tabs, -, -⟩ := splitLine_iff.mp splits
      have newlines : '\n' ∉ path := fun member =>
        clean (chomp_subset line (body ▸ List.mem_append_left _ member))
      split at loaded
      · cases loaded
      · split at loaded
        · split at loaded
          · cases loaded
          · split at loaded
            · cases loaded
            · split at loaded
              · cases loaded
              · split at loaded
                · cases loaded
                · cases loaded
                  exact ⟨path, rfl, tabs, newlines⟩
        all_goals cases loaded

/-- A line that loads, and the lines after it. -/
theorem loads_cons {alignment : Nat} {directory : Path} {line : Text} {rest : List Text}
    {results : List (Option Shard)} (loads : (line :: rest).map (loadLine alignment directory) =
      results.map fun result => some (.ok result)) :
    ∃ result more, results = result :: more ∧
      loadLine alignment directory line = some (.ok result) ∧
      rest.map (loadLine alignment directory) = more.map fun result => some (.ok result) := by
  obtain ⟨result, more, rfl, first, later⟩ := List.map_eq_cons_iff.mp loads.symm
  exact ⟨result, more, rfl, first.symm, later.symm⟩

/-- A manifest loads when all of its lines do, to the shards they give. -/
theorem loadLines_eq_ok {alignment number : Nat} {directory : Path} {lines : List Text}
    {before loaded : ShardSet} :
    loadLines alignment directory number lines before = some (.ok loaded) ↔
      ∃ results : List (Option Shard), lines.map (loadLine alignment directory) =
        results.map (fun result => some (.ok result)) ∧
        loaded = before ++ results.reduceOption := by
  induction lines generalizing number before with
  | nil =>
      simp only [loadLines]
      constructor
      · rintro ⟨⟩
        exact ⟨[], rfl, by simp⟩
      · rintro ⟨results, none, rfl⟩
        rw [List.map_eq_nil_iff.mp none.symm, List.reduceOption_nil, List.append_nil]
  | cons line rest ih =>
      simp only [loadLines]
      split
      · next crashed =>
        constructor
        · intro loads
          cases loads
        · rintro ⟨results, loads, -⟩
          obtain ⟨_, _, _, first, _⟩ := loads_cons loads
          cases crashed.symm.trans first
      · next wrong =>
        constructor
        · intro loads
          cases loads
        · rintro ⟨results, loads, -⟩
          obtain ⟨_, _, _, first, _⟩ := loads_cons loads
          cases wrong.symm.trans first
      · next shard fine =>
        rw [ih]
        constructor
        · rintro ⟨results, loads, rfl⟩
          refine ⟨shard :: results, by rw [List.map_cons, List.map_cons, fine, loads], ?_⟩
          cases shard <;> simp
        · rintro ⟨results, loads, rfl⟩
          obtain ⟨first, more, rfl, same, later⟩ := loads_cons loads
          cases fine.symm.trans same
          refine ⟨more, later, ?_⟩
          cases shard <;> simp

/-! ## What is written -/

variable {relative : Path → Path → Except Nat Path} {filebuf : Filebuf}

/-- The lines of a manifest of these shards. -/
def manifestLines (relative : Path → Path → Except Nat Path) (directory : Path)
    (shards : ShardSet) : List Text :=
  manifestHeader ::
    shards.map fun shard => fields (written relative directory shard.path.toList) shard

/-- The header, and a line for each of the shards. -/
def manifestText (relative : Path → Path → Except Nat Path) (directory : Path)
    (shards : ShardSet) : Text :=
  (manifestLines relative directory shards).flatMap (· ++ ['\n'])

/-- What `save` inserts into its stream for these shards. -/
def manifestPieces (relative : Path → Path → Except Nat Path) (directory : Path)
    (shards : ShardSet) : List Text :=
  [manifestHeader, ['\n']] ++ shards.flatMap fun shard =>
    linePieces (written relative directory shard.path.toList) shard

/-- The insertions of a line make up the line. -/
theorem flatten_linePieces (path : Path) (shard : Shard) :
    (linePieces path shard).flatten = fields path shard ++ ['\n'] := by
  simp [linePieces, fields]

/-- The insertions of a manifest make up its text. -/
theorem flatten_manifestPieces (relative : Path → Path → Except Nat Path) (directory : Path)
    (shards : ShardSet) :
    (manifestPieces relative directory shards).flatten =
      manifestText relative directory shards := by
  have lines : (shards.flatMap fun shard =>
      linePieces (written relative directory shard.path.toList) shard).flatten =
        shards.flatMap fun shard =>
          fields (written relative directory shard.path.toList) shard ++ ['\n'] := by
    rw [← List.flatMap_id, List.flatMap_assoc]
    exact List.flatMap_congr fun shard _ => List.flatMap_id.trans (flatten_linePieces _ shard)
  simp [manifestPieces, manifestText, manifestLines, lines, List.flatMap_map]

/-- A path `save` does not reject. -/
def Clean (shard : Shard) : Prop := '\t' ∉ shard.path.toList ∧ '\n' ∉ shard.path.toList

instance : DecidablePred Clean := fun shard =>
  inferInstanceAs (Decidable ('\t' ∉ shard.path.toList ∧ '\n' ∉ shard.path.toList))

/-- The shards before the first one that `save` rejects. -/
def acceptedShards (shards : ShardSet) : ShardSet := shards.takeWhile fun shard => Clean shard

/-- All shards are accepted when no path has a tab or a newline. -/
theorem acceptedShards_of_clean {shards : ShardSet} (clean : ∀ shard ∈ shards, Clean shard) :
    acceptedShards shards = shards :=
  List.takeWhile_eq_self_iff.mpr (by simpa using clean)

/-- The loop of `save` inserts the lines of the shards before the first rejected one. -/
theorem saveShards_holds {directory : Path} {shards : ShardSet} {out : OutStream Char}
    {pieces : List Text}
    (holds : out.Holds filebuf.toDevice (filebuf.plan pieces) pieces.flatten) :
    (∃ all, all = pieces ++ (acceptedShards shards).flatMap (fun shard =>
          linePieces (written relative directory shard.path.toList) shard) ∧
        (saveShards relative filebuf directory shards out).2.Holds filebuf.toDevice
          (filebuf.plan all) all.flatten) ∧
      ((saveShards relative filebuf directory shards out).1 = .ok () ↔
        ∀ shard ∈ shards, Clean shard) := by
  induction shards generalizing out pieces with
  | nil => simpa [saveShards, acceptedShards] using holds
  | cons shard rest ih =>
      by_cases clean : Clean shard
      · have passes : ¬ ('\t' ∈ shard.path.toList ∨ '\n' ∈ shard.path.toList) := not_or.mpr clean
        have inserted := holds.insertAll (linePieces (written relative directory
          shard.path.toList) shard)
        rw [← filebuf.plan_append, ← List.flatten_append] at inserted
        have next := ih inserted
        simp only [saveShards, if_neg passes, List.forall_mem_cons]
        rw [acceptedShards, List.takeWhile_cons_of_pos (by simpa using clean)]
        simpa [clean, acceptedShards] using next
      · have rejects : '\t' ∈ shard.path.toList ∨ '\n' ∈ shard.path.toList := by
          by_contra fine
          exact clean (not_or.mp fine)
        have none : acceptedShards (shard :: rest) = [] :=
          List.takeWhile_cons_of_neg (by simpa using clean)
        simp only [saveShards, if_pos rejects, none, List.flatMap_nil, List.append_nil]
        refine ⟨⟨pieces, rfl, holds⟩, ?_⟩
        constructor
        · intro accepted
          cases accepted
        · intro all
          exact absurd (all shard List.mem_cons_self) clean

/-- A save that could open the manifest: what it returns and what it leaves. -/
theorem save_opened (relative : Path → Path → Except Nat Path) (filebuf : Filebuf)
    (manifest : String) (shards : ShardSet) {pieces : List Text}
    (inserted : pieces =
      manifestPieces relative (Path.parent manifest.toList) (acceptedShards shards)) :
    ∃ out : OutStream Char, out.Holds filebuf.toDevice (filebuf.plan pieces) pieces.flatten ∧
      (ShardSet.save relative filebuf true manifest shards).2 =
        some (out.close filebuf.toDevice) ∧
      ((ShardSet.save relative filebuf true manifest shards).1 = .ok () ↔
        (∀ shard ∈ shards, Clean shard) ∧ out.failed = false) := by
  have start := (OutStream.holds_fresh filebuf.toDevice).insertAll [manifestHeader, ['\n']]
  obtain ⟨⟨all, same, holds⟩, accepts⟩ :=
    @saveShards_holds relative filebuf (Path.parent manifest.toList) shards _
      [manifestHeader, ['\n']] start
  obtain rfl : pieces = all := inserted.trans same.symm
  refine ⟨_, holds, ?_, ?_⟩
  · simp only [ShardSet.save, Bool.true_eq_false, if_false]
    split <;> next same => rw [same]
  · rw [← accepts]
    simp only [ShardSet.save, Bool.true_eq_false, if_false]
    split
    · next same => simp [same]
    · next same =>
      rw [same]
      split
      · next broken => simp [broken]
      · next fine => simp [fine]

/-- What a save that returns ok leaves when its last write succeeds too. -/
theorem save_spec {manifest : String} {shards : ShardSet} {out : OutStream Char}
    (saved : ShardSet.save relative filebuf true manifest shards = (.ok (), some out))
    (wrote : out.failed = false) :
    (∀ shard ∈ shards, Clean shard) ∧
      out.content = manifestText relative (Path.parent manifest.toList) shards := by
  obtain ⟨stream, holds, left, succeeds⟩ := save_opened relative filebuf manifest shards rfl
  rw [saved] at left succeeds
  obtain ⟨clean, fine⟩ := succeeds.mp rfl
  obtain rfl : out = stream.close filebuf.toDevice := Option.some.inj left
  rw [acceptedShards_of_clean clean, flatten_manifestPieces] at holds
  exact ⟨clean, (holds.close_eq_iff fine).mpr (holds.close_fine_iff.mp wrote).2⟩

/-- Where every write is taken, the one of the close included, `save` succeeds. -/
theorem save_succeeds {manifest : String} {shards : ShardSet} {pieces : List Text}
    (inserted : pieces = manifestPieces relative (Path.parent manifest.toList) shards)
    (clean : ∀ shard ∈ shards, Clean shard)
    (takes : Takes filebuf.accepts 0 (filebuf.plan pieces).writes)
    (rest : (filebuf.plan pieces).buffered ≤
      filebuf.accepts (filebuf.plan pieces).writes.length) :
    ∃ out, ShardSet.save relative filebuf true manifest shards = (.ok (), some out) ∧
      out.failed = false := by
  rw [← acceptedShards_of_clean clean] at inserted
  obtain ⟨stream, holds, left, succeeds⟩ := save_opened relative filebuf manifest shards inserted
  have fine := holds.fine_iff.mpr takes
  exact ⟨_, Prod.ext (succeeds.mpr ⟨clean, fine⟩) left, holds.close_fine_iff.mpr ⟨fine, rest⟩⟩

/-! ## Round trips -/

/-- What `load` reads as the path of a line. -/
def Writable (path : Path) : Prop := '\t' ∉ path ∧ '\n' ∉ path ∧ path.head? ≠ some '#'

/-- A shard with the path written for it, from the directory of the manifest. -/
def readBack (relative : Path → Path → Except Nat Path) (directory : Path) (shard : Shard) :
    Shard :=
  { shard with
    path := String.ofList (resolve directory (written relative directory shard.path.toList)) }

/-- `std::filesystem::relative` gives a relative path to the file of each of the shards, or
none for one whose path is absolute. -/
structure Relativizes (sameFile : String → String → Prop)
    (relative : Path → Path → Except Nat Path) (directory : Path) (shards : ShardSet) : Prop where
  yields : ∀ shard ∈ shards, ∀ path, relative shard.path.toList directory = .ok path → path ≠ [] →
    ¬ path.IsAbsolute ∧ sameFile (String.ofList (directory.append path)) shard.path
  fails : ∀ shard ∈ shards, (∀ path, relative shard.path.toList directory = .ok path → path = []) →
    Path.IsAbsolute shard.path.toList

/-- The manifest loads to the same shards in the same order, each with a path to the same
file, and with the same path if the manifest has no directory. -/
structure RoundTrips (sameFile : String → String → Prop)
    (relative : Path → Path → Except Nat Path) (manifest : String) (alignment : Nat)
    (shards : ShardSet) (text : Text) : Prop where
  loads : ShardSet.load manifest alignment (some ⟨text, false⟩) =
    some (.ok (shards.map (readBack relative (Path.parent manifest.toList))))
  names : ∀ shard ∈ shards,
    sameFile (readBack relative (Path.parent manifest.toList) shard).path shard.path
  verbatim : Path.parent manifest.toList = [] →
    shards.map (readBack relative (Path.parent manifest.toList)) = shards

/-- Beside no directory a path is read back as it is. -/
theorem readBack_verbatim (shard : Shard) : readBack relative [] shard = shard := by
  simp [readBack, written, resolve]

/-- What is written for a shard: what `relative` gives, or its own path. -/
theorem Relativizes.written_cases {sameFile : String → String → Prop} {directory : Path}
    {shards : ShardSet} (relativizes : Relativizes sameFile relative directory shards)
    (some : directory ≠ []) {shard : Shard} (member : shard ∈ shards) :
    (¬ (written relative directory shard.path.toList).IsAbsolute ∧
        sameFile (readBack relative directory shard).path shard.path) ∨
      written relative directory shard.path.toList = shard.path.toList ∧
        Path.IsAbsolute shard.path.toList := by
  simp only [readBack, written, if_neg some]
  split
  · next path given =>
    split
    · next empty =>
      refine .inr ⟨rfl, relativizes.fails shard member fun other same => ?_⟩
      rw [given] at same
      exact (Except.ok.inj same).symm.trans empty
    · next nonempty =>
      obtain ⟨inside, names⟩ := relativizes.yields shard member path given nonempty
      refine .inl ⟨inside, ?_⟩
      simpa only [resolve, inside, some, not_false_eq_true, ne_eq, and_self, if_true] using names
  · next failed =>
    refine .inr ⟨rfl, relativizes.fails shard member fun other same => ?_⟩
    rw [failed] at same
    cases same

/-- What loads is what its lines load. -/
theorem load_eq_ok {manifest : String} {alignment : Nat} {text : Text} {loaded : ShardSet} :
    ShardSet.load manifest alignment (some ⟨text, false⟩) = some (.ok loaded) ↔
      loadLines alignment (Path.parent manifest.toList) 0 (records '\n' text) [] =
        some (.ok loaded) := by
  simp only [ShardSet.load, InStream.lines_good]
  split
  · next crashed => simp [crashed]
  · next wrong => simp [wrong]
  · next fine => simp [fine]

/-- The paths of what loads come from lines. -/
theorem loaded_path {alignment number : Nat} {directory : Path} {text : Text} {loaded : ShardSet}
    (loads : loadLines alignment directory number (records '\n' text) [] = some (.ok loaded))
    {shard : Shard} (member : shard ∈ loaded) :
    ∃ path : Path, shard.path = String.ofList (resolve directory path) ∧ '\t' ∉ path ∧
      '\n' ∉ path := by
  obtain ⟨results, lines, rfl⟩ := loadLines_eq_ok.mp loads
  have result : some shard ∈ results := List.reduceOption_mem_iff.mp (by simpa using member)
  have given : some (.ok (some shard)) ∈
      (records '\n' text).map (loadLine alignment directory) := by
    rw [lines]
    exact List.mem_map.mpr ⟨_, result, rfl⟩
  obtain ⟨line, inside, gives⟩ := List.mem_map.mp given
  exact loadLine_path (not_mem_records inside) gives

/-- Paths are resolved behind the directory. -/
theorem resolve_eq_append {directory : Path} (some : directory ≠ []) (path : Path) :
    resolve directory path = directory.append path := by
  by_cases absolute : path.IsAbsolute
  · simp [resolve, Path.append, absolute]
  · simp [resolve, absolute, some]

/-- A path that comes back was written without tabs and newlines. -/
theorem written_clean {sameFile : String → String → Prop} {directory : Path} {shards : ShardSet}
    {alignment : Nat} {text : Text}
    (clean : ∀ shard ∈ shards, '\t' ∉ shard.path.toList ∧ '\n' ∉ shard.path.toList)
    (relativizes : directory ≠ [] → Relativizes sameFile relative directory shards)
    (loads : loadLines alignment directory 0 (records '\n' text) [] =
      some (.ok (shards.map (readBack relative directory))))
    {shard : Shard} (member : shard ∈ shards) :
    '\t' ∉ written relative directory shard.path.toList ∧
      '\n' ∉ written relative directory shard.path.toList := by
  by_cases none : directory = []
  · rw [written, if_pos none]
    exact clean shard member
  · rcases (relativizes none).written_cases none member with ⟨inside, -⟩ | ⟨same, -⟩
    · obtain ⟨path, back, tabs, newlines⟩ :=
        loaded_path loads (List.mem_map.mpr ⟨shard, member, rfl⟩)
      have resolved : resolve directory (written relative directory shard.path.toList) =
          resolve directory path := String.ofList_injective back
      rw [resolve_eq_append none, resolve_eq_append none] at resolved
      have ends := Path.isSuffix_of_append_eq inside resolved.symm
      exact ⟨fun found => tabs (ends.subset found), fun found => newlines (ends.subset found)⟩
    · rw [same]
      exact clean shard member

/-- The header is skipped. -/
theorem header_loads (alignment : Nat) (directory : Path) :
    loadLine alignment directory manifestHeader = some (.ok none) :=
  loadLine_comment alignment directory (by decide) (by decide)

/-- A manifest splits into the lines that were written. -/
theorem records_manifestLines {directory : Path} {shards : ShardSet}
    (clean : ∀ shard ∈ shards, '\n' ∉ written relative directory shard.path.toList) :
    records '\n' (manifestText relative directory shards) =
      manifestLines relative directory shards := by
  refine records_flatMap fun line member => ?_
  rcases List.mem_cons.mp member with rfl | later
  · decide
  · obtain ⟨shard, inside, rfl⟩ := List.mem_map.mp later
    simp [fields, clean shard inside, not_mem_decimal]

/-- What the shards of a set satisfy when a manifest of theirs can be loaded. -/
structure Shard.Loadable (alignment : Nat) (shard : Shard) : Prop where
  named : shard.path ≠ ""
  positive : 0 < shard.length
  divides : alignment ∣ shard.offset
  noOverflow : shard.NoOverflow

/-- No empty path is written for one that is not empty. -/
theorem written_ne_nil {directory path : Path} (some : path ≠ []) :
    written relative directory path ≠ [] := by
  simp only [written]
  split
  · exact some
  · split
    · split
      · exact some
      · assumption
    · exact some

/-- The line of a shard gives it back, unless its path makes it a comment. -/
theorem Shard.Loadable.line {alignment : Nat} {shard : Shard} (loadable : shard.Loadable alignment)
    (directory : Path) (writable : Writable (written relative directory shard.path.toList)) :
    loadLine alignment directory (fields (written relative directory shard.path.toList) shard) =
      if alignment = 0 then none else some (.ok (some (readBack relative directory shard))) :=
  loadLine_fields directory (written_ne_nil (by simpa using loadable.named)) writable.1
    writable.2.2 loadable.positive loadable.divides loadable.noOverflow

/-- The lines of shards that all come back. -/
theorem lines_load {alignment : Nat} {directory : Path} {shards : ShardSet}
    (loadable : ∀ shard ∈ shards, shard.Loadable alignment)
    (writable : ∀ shard ∈ shards, Writable (written relative directory shard.path.toList))
    (nonzero : alignment = 0 → shards = []) :
    loadLines alignment directory 0 (manifestLines relative directory shards) [] =
      some (.ok (shards.map (readBack relative directory))) := by
  refine loadLines_eq_ok.mpr
    ⟨none :: shards.map fun shard => some (readBack relative directory shard), ?_, ?_⟩
  · simp only [manifestLines, List.map_cons, header_loads, List.map_map]
    congr 1
    refine List.map_congr_left fun shard member => ?_
    have some : alignment ≠ 0 := fun zero => List.ne_nil_of_mem member (nonzero zero)
    exact ((loadable shard member).line directory (writable shard member)).trans (if_neg some)
  · simp [List.reduceOption, List.filterMap_map]

/-- Lines that load to as many shards are no comments. -/
theorem lines_writable {alignment : Nat} {directory : Path} {shards : ShardSet}
    (loadable : ∀ shard ∈ shards, shard.Loadable alignment)
    (clean : ∀ shard ∈ shards, '\t' ∉ written relative directory shard.path.toList ∧
      '\n' ∉ written relative directory shard.path.toList)
    (loads : loadLines alignment directory 0 (manifestLines relative directory shards) [] =
      some (.ok (shards.map (readBack relative directory)))) :
    (∀ shard ∈ shards, Writable (written relative directory shard.path.toList)) ∧
      (alignment = 0 → shards = []) := by
  obtain ⟨results, lines, loaded⟩ := loadLines_eq_ok.mp loads
  obtain ⟨first, more, rfl, header, rest⟩ := List.map_eq_cons_iff.mp lines.symm
  rw [header_loads] at header
  cases header
  rw [List.nil_append, List.reduceOption_cons_of_none] at loaded
  have lengths := congrArg List.length rest
  have counts := congrArg List.length loaded
  simp only [List.length_map] at lengths counts
  have all : ∀ result ∈ more, result.isSome :=
    List.reduceOption_length_eq_iff.mp (counts.symm.trans lengths.symm)
  have gives {shard : Shard} (member : shard ∈ shards) : ∃ back, loadLine alignment directory
      (fields (written relative directory shard.path.toList) shard) = some (.ok (some back)) := by
    have given : loadLine alignment directory
        (fields (written relative directory shard.path.toList) shard) ∈
        more.map fun result => some (.ok result) := by
      rw [rest, List.map_map]
      exact List.mem_map.mpr ⟨shard, member, rfl⟩
    obtain ⟨result, inside, same⟩ := List.mem_map.mp given
    obtain ⟨back, rfl⟩ := Option.isSome_iff_exists.mp (all result inside)
    exact ⟨back, same.symm⟩
  have writable (shard) (member : shard ∈ shards) :
      Writable (written relative directory shard.path.toList) := by
    refine ⟨(clean shard member).1, (clean shard member).2, fun comment => ?_⟩
    obtain ⟨back, same⟩ := gives member
    have starts : (fields (written relative directory shard.path.toList) shard).head? =
        some '#' := by
      rw [fields, List.head?_append, comment, Option.some_or]
    rw [loadLine_comment alignment directory (chomp_fields _ _) starts] at same
    cases same
  refine ⟨writable, fun zero => List.eq_nil_iff_forall_not_mem.mpr fun shard member => ?_⟩
  obtain ⟨back, same⟩ := gives member
  rw [(loadable shard member).line directory (writable shard member), if_pos zero] at same
  cases same

/-- A set that was saved loads back exactly when no path written for it starts with `#` or
has a tab or a newline in it, unless the alignment is 0 and there is a line to check. -/
theorem round_trips_iff {sameFile : String → String → Prop} {manifest : String} {alignment : Nat}
    {shards : ShardSet} {out : OutStream Char} (same : ∀ path, sameFile path path)
    (relativizes : Path.parent manifest.toList ≠ [] →
      Relativizes sameFile relative (Path.parent manifest.toList) shards)
    (loadable : ∀ shard ∈ shards, shard.Loadable alignment)
    (saved : ShardSet.save relative filebuf true manifest shards = (.ok (), some out))
    (wrote : out.failed = false) :
    RoundTrips sameFile relative manifest alignment shards out.content ↔
      (∀ shard ∈ shards,
        Writable (written relative (Path.parent manifest.toList) shard.path.toList)) ∧
      (alignment = 0 → shards = []) := by
  obtain ⟨clean, content⟩ := save_spec saved wrote
  constructor
  · rintro ⟨loads, -, -⟩
    rw [load_eq_ok] at loads
    have tidy (shard) (member : shard ∈ shards) := written_clean clean relativizes loads member
    rw [content, records_manifestLines fun shard member => (tidy shard member).2] at loads
    exact lines_writable loadable tidy loads
  · rintro ⟨writable, nonzero⟩
    refine ⟨?_, fun shard member => ?_, fun none => ?_⟩
    · rw [load_eq_ok, content,
        records_manifestLines fun shard member => (writable shard member).2.1]
      exact lines_load loadable writable nonzero
    · by_cases none : Path.parent manifest.toList = []
      · rw [none, readBack_verbatim]
        exact same _
      · rcases (relativizes none).written_cases none member with ⟨-, names⟩ | ⟨kept, absolute⟩
        · exact names
        · rw [readBack, kept, resolve, if_neg (fun both => both.1 absolute), String.ofList_toList]
          exact same _
    · rw [none, List.map_congr_left fun shard _ => readBack_verbatim shard, List.map_id']

/-- A disk with room. A buffer of eight kilobytes is written out with an insertion that does not
fit, or that is a kilobyte long. -/
def roomy : Filebuf := ⟨⟨8192, fun _ => 2 ^ 40⟩, fun buffered size =>
  min 1024 (8191 - buffered) ≤ size⟩

/-- `relative` is not called for a manifest without a directory. -/
def noRelative : Path → Path → Except Nat Path := fun _ _ => .error 2

/-- A set of one file comes back. -/
theorem oneFile_round_trips : ∃ out,
    ShardSet.save noRelative roomy true "m.tsv" [⟨"a.bin", 0, 4096⟩] = (.ok (), some out) ∧
      RoundTrips Eq noRelative "m.tsv" 4096 [⟨"a.bin", 0, 4096⟩] out.content := by
  obtain ⟨out, saved, wrote⟩ := @save_succeeds noRelative roomy "m.tsv" [⟨"a.bin", 0, 4096⟩]
    _ rfl (by decide) (by decide +kernel) (by decide +kernel)
  have loadable : ∀ shard ∈ ([⟨"a.bin", 0, 4096⟩] : ShardSet), shard.Loadable 4096 := by
    intro shard member
    cases List.mem_singleton.mp member
    exact ⟨by decide, by decide, by decide, by simp [Shard.NoOverflow]⟩
  have spec := @round_trips_iff noRelative roomy Eq "m.tsv" 4096 _ out (fun _ => rfl)
    (fun some => absurd (by decide) some) loadable saved wrote
  refine ⟨out, saved, spec.mpr ⟨fun shard member => ?_, nofun⟩⟩
  cases List.mem_singleton.mp member
  exact ⟨by decide, by decide, by decide⟩

/-- A path that starts with `#` is saved, and its shard is gone when the manifest is
loaded. -/
theorem hash_path_is_dropped :
    ¬ ∀ (sameFile : String → String → Prop) (relative : Path → Path → Except Nat Path)
      (filebuf : Filebuf) (manifest : String) (alignment : Nat) (shards : ShardSet)
      (out : OutStream Char), (∀ path, sameFile path path) →
      (Path.parent manifest.toList ≠ [] →
        Relativizes sameFile relative (Path.parent manifest.toList) shards) →
      (∀ shard ∈ shards, shard.Loadable alignment) →
      ShardSet.save relative filebuf true manifest shards = (.ok (), some out) →
      out.failed = false → RoundTrips sameFile relative manifest alignment shards out.content := by
  intro always
  obtain ⟨out, saved, wrote⟩ := @save_succeeds noRelative roomy "m.tsv" [⟨"#a.bin", 0, 4096⟩]
    _ rfl (by decide) (by decide +kernel) (by decide +kernel)
  have loadable : ∀ shard ∈ ([⟨"#a.bin", 0, 4096⟩] : ShardSet), shard.Loadable 4096 := by
    intro shard member
    cases List.mem_singleton.mp member
    exact ⟨by decide, by decide, by decide, by simp [Shard.NoOverflow]⟩
  have loads := (always Eq noRelative roomy "m.tsv" 4096 _ out (fun _ => rfl)
    (fun some => absurd (by decide) some) loadable saved wrote).loads
  rw [load_eq_ok, (save_spec saved wrote).2, records_manifestLines (by decide)] at loads
  have written := (lines_writable loadable (by decide) loads).1 _ List.mem_cons_self
  exact written.2.2 (by decide)

end Dsio
