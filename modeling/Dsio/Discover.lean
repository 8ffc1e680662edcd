import Mathlib.Data.Char
import Mathlib.Data.List.Lex
import Mathlib.Data.List.Sort
import Dsio.Manifest

/-!
# Discovering shards

`ShardSet::discover` lists a directory in whatever order the iterator gives. One error
code is shared by the iterator and by the query of every entry, and looked at after the
loop: it is what the last query left.
-/

namespace Dsio

/-- An entry of a directory: its name, and what `is_regular_file` and `file_size` give for
it. -/
structure DirEntry where
  name : Text
  regular : Except Nat Bool
  size : Except Nat Nat
deriving DecidableEq

namespace DirEntry

def Hidden (entry : DirEntry) : Prop := entry.name.head? = some '.'

instance : DecidablePred Hidden := fun entry =>
  inferInstanceAs (Decidable (entry.name.head? = some '.'))

/-- `entry.path()`. -/
def path (directory : Path) (entry : DirEntry) : Path := Path.append directory entry.name

/-- The size `file_size` gives; 0 if it fails. -/
def bytes (entry : DirEntry) : Nat :=
  match entry.size with
  | .error _ => 0
  | .ok size => size

/-- The error code a query of this entry leaves. -/
def failure (entry : DirEntry) : Option Nat :=
  match entry.regular with
  | .error code => some code
  | .ok _ => none

end DirEntry

namespace ShardSet

/-- The loop over the directory: the files, and the error code. -/
def collect : List DirEntry → Option Nat → List DirEntry × Option Nat
  | [], code => ([], code)
  | entry :: rest, code =>
      if entry.Hidden then collect rest code
      else
        let (files, code) := collect rest entry.failure
        (if entry.regular = .ok true then entry :: files else files, code)

/-- The files in the order of their names. -/
def sorted (files : List DirEntry) : List DirEntry :=
  files.insertionSort fun first second => first.name ≤ second.name

/-- The loop over the sorted files. -/
def sizes (message : Nat → String) (absolute : Path → Path) (directory : Path) :
    List DirEntry → ShardSet → Outcome ShardSet
  | [], shards => .ok shards
  | file :: rest, shards =>
      match file.size with
      | .error code =>
          .error ⟨"dsio::ShardSet::discover: cannot stat '" ++
            String.ofList (file.path directory) ++ "': " ++ message code, none⟩
      | .ok size =>
          if size = 0 then sizes message absolute directory rest shards
          else sizes message absolute directory rest
            (shards ++ [⟨String.ofList (absolute (file.path directory)), 0, size⟩])

/-- `ShardSet::discover`, of what `is_directory` and the iterator give. -/
def discover (message : Nat → String) (absolute : Path → Path) (directory : String)
    (isDirectory : Bool) (listed : Except Nat (List DirEntry)) : Outcome ShardSet :=
  if isDirectory = false then
    .error ⟨"dsio::ShardSet::discover: not a directory: '" ++ directory ++ "'", none⟩
  else
    let (files, code) :=
      match listed with
      | .error code => ([], some code)
      | .ok entries => collect entries none
    match code with
    | some code =>
        .error ⟨"dsio::ShardSet::discover: cannot read '" ++ directory ++ "': " ++ message code,
          none⟩
    | none =>
        sizes message absolute directory.toList (sorted files) []

/-! ## The loop over the directory -/

variable {message : Nat → String} {absolute : Path → Path} {directory : String}
variable {entries files : List DirEntry}

/-- A file the loop collects. -/
def Collected (entry : DirEntry) : Prop := ¬ entry.Hidden ∧ entry.regular = .ok true

instance : DecidablePred Collected := fun entry =>
  inferInstanceAs (Decidable (¬ entry.Hidden ∧ entry.regular = .ok true))

/-- The files collected are those a query finds regular. -/
theorem collect_files (entries : List DirEntry) (code : Option Nat) :
    (collect entries code).1 = entries.filter fun entry => Collected entry := by
  induction entries generalizing code with
  | nil => rfl
  | cons entry rest ih =>
      by_cases hidden : entry.Hidden
      · simp [collect, Collected, hidden, ih]
      · by_cases regular : entry.regular = .ok true
        · simp [collect, Collected, hidden, regular, ih]
        · simp [collect, Collected, hidden, regular, ih]

/-- The error code is that of the last entry that was queried. -/
theorem collect_code (entries : List DirEntry) (code : Option Nat) :
    (collect entries code).2 =
      ((entries.filter fun entry => ¬ entry.Hidden).getLast?.map DirEntry.failure).getD code := by
  induction entries generalizing code with
  | nil => rfl
  | cons entry rest ih =>
      by_cases hidden : entry.Hidden
      · simp [collect, hidden, ih]
      · simp only [collect, if_neg hidden, ih]
        rw [List.filter_cons_of_pos (by simpa using hidden), List.getLast?_cons]
        cases (rest.filter fun entry => ¬ entry.Hidden).getLast? <;> simp

/-! ## The files, sorted -/

/-- Sorting keeps the files. -/
theorem sorted_perm (files : List DirEntry) : (sorted files).Perm files :=
  List.perm_insertionSort _ files

/-- Sorted files are in the order of their names. -/
theorem sorted_ordered (files : List DirEntry) :
    (sorted files).Pairwise fun first second => first.name ≤ second.name := by
  have : Std.Total fun first second : DirEntry => first.name ≤ second.name :=
    ⟨fun first second => le_total first.name second.name⟩
  have : IsTrans DirEntry fun first second => first.name ≤ second.name :=
    ⟨fun _ _ _ => le_trans⟩
  exact List.pairwise_insertionSort _ files

/-- Entries of one directory differ by their names. -/
theorem eq_of_name {first second : DirEntry} (distinct : (entries.map (·.name)).Nodup)
    (mem : first ∈ entries) (other : second ∈ entries) (same : first.name = second.name) :
    first = second :=
  List.inj_on_of_nodup_map distinct mem other same

/-- With distinct names there is one way to sort. -/
theorem sorted_eq_of_perm {others : List DirEntry} (distinct : (files.map (·.name)).Nodup)
    (perm : others.Perm files) : sorted others = sorted files := by
  have whole : (sorted others).Perm (sorted files) :=
    (sorted_perm others).trans (perm.trans (sorted_perm files).symm)
  refine whole.eq_of_pairwise (fun first second mem other below above => ?_)
    (sorted_ordered others) (sorted_ordered files)
  have inside : first ∈ files := perm.mem_iff.mp ((sorted_perm others).mem_iff.mp mem)
  exact eq_of_name distinct inside ((sorted_perm files).mem_iff.mp other)
    (le_antisymm below above)

/-- Sorted files have increasing names. -/
theorem sorted_strict (distinct : (files.map (·.name)).Nodup) :
    (sorted files).Pairwise fun first second => first.name < second.name := by
  have names : ((sorted files).map (·.name)).Nodup :=
    ((sorted_perm files).map _).nodup_iff.mpr distinct
  have apart := List.pairwise_map.mp names
  refine ((sorted_ordered files).and apart).imp ?_
  rintro first second ⟨below, other⟩
  exact lt_of_le_of_ne below other

/-! ## Sizes -/

/-- The shard of a file: all of it. -/
def wholeFile (absolute : Path → Path) (directory : Path) (file : DirEntry) : Shard :=
  ⟨String.ofList (absolute (file.path directory)), 0, file.bytes⟩

/-- When every size is known, the files that are not empty become shards. -/
theorem sizes_ok {directory : Path} (known : ∀ file ∈ files, ∃ size, file.size = .ok size)
    (shards : ShardSet) : sizes message absolute directory files shards =
      .ok (shards ++ (files.filter fun file => 0 < file.bytes).map
        (wholeFile absolute directory)) := by
  induction files generalizing shards with
  | nil => simp [sizes]
  | cons file rest ih =>
      obtain ⟨⟨size, given⟩, later⟩ := List.forall_mem_cons.mp known
      have bytes : file.bytes = size := by simp [DirEntry.bytes, given]
      simp only [sizes, given]
      split
      · next empty =>
        rw [ih later, List.filter_cons_of_neg (by simp [bytes, empty])]
      · next some =>
        rw [ih later, List.filter_cons_of_pos (by simpa [bytes] using Nat.pos_of_ne_zero some)]
        simp [wholeFile, bytes]

/-- What the second loop reports is about a size. -/
theorem sizes_cases (directory : Path) (files : List DirEntry) (shards : ShardSet) :
    (∃ loaded, sizes message absolute directory files shards = .ok loaded) ∨
      ∃ rest, sizes message absolute directory files shards =
        .error ⟨"dsio::ShardSet::discover: cannot stat '" ++ rest, none⟩ := by
  induction files generalizing shards with
  | nil => exact .inl ⟨shards, rfl⟩
  | cons file rest ih =>
      simp only [sizes]
      split
      · simp only [String.append_assoc]
        exact .inr ⟨_, rfl⟩
      · split
        · exact ih shards
        · exact ih _

/-! ## The order of the listing -/

/-- The entries that are queried. -/
def queried (entries : List DirEntry) : List DirEntry :=
  entries.filter fun entry => ¬ entry.Hidden

/-- What `discover` makes of a directory, by the last entry it queries. -/
theorem discover_listed (message : Nat → String) (absolute : Path → Path) (directory : String)
    (entries : List DirEntry) :
    discover message absolute directory true (.ok entries) =
      match (queried entries).getLast?.bind DirEntry.failure with
      | some code =>
          .error ⟨"dsio::ShardSet::discover: cannot read '" ++ directory ++ "': " ++ message code,
            none⟩
      | none => sizes message absolute directory.toList
          (sorted (entries.filter fun entry => Collected entry)) [] := by
  have code : (collect entries none).2 = (queried entries).getLast?.bind DirEntry.failure := by
    rw [collect_code]
    show ((queried entries).getLast?.map DirEntry.failure).getD none = _
    cases (queried entries).getLast? <;> rfl
  have pair : collect entries none = (entries.filter fun entry => Collected entry,
      (queried entries).getLast?.bind DirEntry.failure) :=
    Prod.ext (collect_files entries none) code
  simp only [discover, pair, Bool.true_eq_false, if_false]

/-- All entries but the hidden ones are queried. -/
theorem mem_queried {entry : DirEntry} :
    entry ∈ queried entries ↔ entry ∈ entries ∧ ¬ entry.Hidden := by
  simp [queried]

/-- Any entry that is queried may be listed last. -/
theorem exists_last {entry : DirEntry} (member : entry ∈ queried entries) :
    ∃ listing, listing.Perm entries ∧ (queried listing).getLast? = some entry := by
  obtain ⟨inside, shown⟩ := mem_queried.mp member
  refine ⟨entries.erase entry ++ [entry], ?_, ?_⟩
  · exact (List.perm_append_singleton _ _).trans (List.perm_cons_erase inside).symm
  · rw [queried, List.filter_append, List.filter_singleton]
    simp [shown]

/-- The names collected are distinct. -/
theorem collected_distinct (distinct : (entries.map (·.name)).Nodup) :
    ((entries.filter fun entry => Collected entry).map (·.name)).Nodup :=
  (List.filter_sublist.map _).nodup distinct

/-- While no query fails, the files are sized in the order of their names. -/
theorem discover_of_succeeds {listing : List DirEntry} (distinct : (entries.map (·.name)).Nodup)
    (perm : listing.Perm entries) (succeeds : ∀ entry ∈ queried entries, entry.failure = none) :
    discover message absolute directory true (.ok listing) =
      sizes message absolute directory.toList
        (sorted (entries.filter fun entry => Collected entry)) [] := by
  have none : (queried listing).getLast?.bind DirEntry.failure = none := by
    cases last : (queried listing).getLast? with
    | none => rfl
    | some entry =>
        have member := mem_queried.mp (List.mem_of_getLast? last)
        exact succeeds entry (mem_queried.mpr ⟨perm.mem_iff.mp member.1, member.2⟩)
  rw [discover_listed, none]
  exact congrArg (sizes message absolute directory.toList · [])
    (sorted_eq_of_perm (collected_distinct distinct) (perm.filter _))

/-- The last query fails. -/
theorem discover_of_failure {listing : List DirEntry} {entry : DirEntry} {code : Nat}
    (last : (queried listing).getLast? = some entry) (failed : entry.failure = some code) :
    discover message absolute directory true (.ok listing) =
      .error ⟨"dsio::ShardSet::discover: cannot read '" ++ directory ++ "': " ++ message code,
        none⟩ := by
  rw [discover_listed, last, Option.bind_some, failed]

/-- The last query succeeds: there may be an error about a size, but none about the
directory. -/
theorem discover_ne_of_success {listing : List DirEntry} {entry : DirEntry}
    (last : (queried listing).getLast? = some entry) (fine : entry.failure = none)
    (text : String) : discover message absolute directory true (.ok listing) ≠
      .error ⟨"dsio::ShardSet::discover: cannot read '" ++ directory ++ "': " ++ text, none⟩ := by
  rw [discover_listed, last, Option.bind_some, fine]
  dsimp only
  rcases sizes_cases directory.toList
    (sorted (listing.filter fun entry => Collected entry)) [] with
    ⟨loaded, returned⟩ | ⟨rest, returned⟩
  · rw [returned]
    exact nofun
  · rw [returned]
    intro same
    have texts := congrArg String.toList (congrArg Error.message (Except.error.inj same))
    simp [String.toList_append] at texts

/-- Every query fails, with one message. -/
theorem discover_of_failures {listing : List DirEntry} {text : String}
    (perm : listing.Perm entries) (shows : queried entries ≠ [])
    (fails : ∀ entry ∈ queried entries, ∃ code, entry.failure = some code ∧ message code = text) :
    discover message absolute directory true (.ok listing) =
      .error ⟨"dsio::ShardSet::discover: cannot read '" ++ directory ++ "': " ++ text, none⟩ := by
  have shown : (queried listing).Perm (queried entries) := perm.filter _
  have nonempty : queried listing ≠ [] := fun empty => shows (by simpa [empty] using shown)
  have last := List.getLast?_eq_some_getLast nonempty
  obtain ⟨code, failed, same⟩ := fails _ (shown.mem_iff.mp (List.getLast_mem nonempty))
  rw [discover_of_failure last failed, same]

/-- The listing order does not matter exactly when every query succeeds, or they all fail
with one message. -/
theorem orderFree_iff (message : Nat → String) (absolute : Path → Path) (directory : String)
    (distinct : (entries.map (·.name)).Nodup) :
    (∀ first second, first.Perm entries → second.Perm entries →
      discover message absolute directory true (.ok first) =
        discover message absolute directory true (.ok second)) ↔
      (∀ entry ∈ queried entries, entry.failure = none) ∨
      ∃ text, ∀ entry ∈ queried entries, ∃ code, entry.failure = some code ∧
        message code = text := by
  constructor
  · intro same
    by_contra mixed
    obtain ⟨some, differ⟩ := not_or.mp mixed
    push Not at some differ
    obtain ⟨entry, member, failed⟩ := some
    obtain ⟨code, failed⟩ := Option.ne_none_iff_exists'.mp failed
    obtain ⟨other, inside, apart⟩ := differ (message code)
    obtain ⟨first, firstPerm, firstLast⟩ := exists_last member
    obtain ⟨second, secondPerm, secondLast⟩ := exists_last inside
    have agree := same first second firstPerm secondPerm
    rw [discover_of_failure firstLast failed] at agree
    cases otherFailure : other.failure with
    | none => exact discover_ne_of_success secondLast otherFailure _ agree.symm
    | some otherCode =>
        rw [discover_of_failure secondLast otherFailure] at agree
        have texts := congrArg String.toList (congrArg Error.message (Except.error.inj agree))
        simp only [String.toList_append, List.append_cancel_left_eq] at texts
        exact apart otherCode otherFailure (String.toList_injective texts).symm
  · rintro (succeeds | ⟨text, fails⟩) first second firstPerm secondPerm
    · rw [discover_of_succeeds distinct firstPerm succeeds,
        discover_of_succeeds distinct secondPerm succeeds]
    · by_cases none : queried entries = []
      · have succeeds : ∀ entry ∈ queried entries, entry.failure = Option.none := by simp [none]
        rw [discover_of_succeeds distinct firstPerm succeeds,
          discover_of_succeeds distinct secondPerm succeeds]
      · rw [discover_of_failures firstPerm none fails, discover_of_failures secondPerm none fails]

/-- No query and no size fails. -/
def Stats (entries : List DirEntry) : Prop :=
  (∀ entry ∈ queried entries, entry.failure = none) ∧
    ∀ entry ∈ entries, Collected entry → ∃ size, entry.size = .ok size

/-- A shard for each file that is not hidden and not empty, in the order of their names. -/
def Lists (absolute : Path → Path) (directory : Path) (entries : List DirEntry)
    (shards : ShardSet) : Prop :=
  ∃ files : List DirEntry,
    files.Perm (entries.filter fun entry => Collected entry ∧ 0 < entry.bytes) ∧
    (files.Pairwise fun first second => first.name < second.name) ∧
    shards = files.map (wholeFile absolute directory)

/-- Without failures `discover` gives what is documented. -/
theorem discover_lists (message : Nat → String) (absolute : Path → Path) (directory : String)
    {listing : List DirEntry} (distinct : (entries.map (·.name)).Nodup) (stats : Stats entries)
    (perm : listing.Perm entries) :
    ∃ shards, discover message absolute directory true (.ok listing) = .ok shards ∧
      Lists absolute directory.toList entries shards := by
  obtain ⟨succeeds, known⟩ := stats
  have sized : ∀ file ∈ sorted (entries.filter fun entry => Collected entry),
      ∃ size, file.size = .ok size := by
    intro file member
    have collected := List.mem_filter.mp ((sorted_perm _).mem_iff.mp member)
    exact known file collected.1 (by simpa using collected.2)
  refine ⟨_, (discover_of_succeeds distinct perm succeeds).trans (sizes_ok sized []), _,
    ?_, ?_, rfl⟩
  · have filtered := (sorted_perm (entries.filter fun entry => Collected entry)).filter
      fun file => 0 < file.bytes
    rw [List.filter_filter] at filtered
    refine filtered.trans (.of_eq (List.filter_congr fun entry _ => ?_))
    simp [and_comm]
  · exact (sorted_strict (collected_distinct distinct)).filter _

/-- `discover` depends on the directory alone, and gives what is documented, exactly when
no query fails, or all of them fail with one message. -/
theorem discover_deterministic_iff (message : Nat → String) (absolute : Path → Path)
    (directory : String) (distinct : (entries.map (·.name)).Nodup) :
    ((∀ first second, first.Perm entries → second.Perm entries →
        discover message absolute directory true (.ok first) =
          discover message absolute directory true (.ok second)) ∧
      (Stats entries → ∀ listing, listing.Perm entries →
        ∃ shards, discover message absolute directory true (.ok listing) = .ok shards ∧
          Lists absolute directory.toList entries shards)) ↔
      (∀ entry ∈ queried entries, entry.failure = none) ∨
      ∃ text, ∀ entry ∈ queried entries, ∃ code, entry.failure = some code ∧
        message code = text := by
  rw [← orderFree_iff message absolute directory distinct, and_iff_left_iff_imp]
  intro _ stats listing perm
  exact discover_lists message absolute directory distinct stats perm

/-- A file, an empty one and a hidden link to nothing. -/
def regular : List DirEntry :=
  [⟨['b'], .ok true, .ok 1⟩, ⟨['a'], .ok true, .ok 0⟩, ⟨['.', 'c'], .error 2, .error 2⟩]

/-- Every listing of the directory gives the one shard. -/
theorem regular_deterministic :
    (∀ first second, first.Perm regular → second.Perm regular →
      discover toString id "d" true (.ok first) = discover toString id "d" true (.ok second)) ∧
    discover toString id "d" true (.ok regular) = .ok [⟨"d/b", 0, 1⟩] :=
  ⟨((discover_deterministic_iff toString id "d" (by decide)).mpr (.inl (by decide))).1, by decide⟩

/-- A file of one byte, and a symbolic link to nothing. -/
def dangling : List DirEntry := [⟨['a'], .ok true, .ok 1⟩, ⟨['b'], .error 2, .error 2⟩]

/-- Listed last, the link makes `discover` fail; listed first, it is skipped. -/
theorem dangling_link_depends_on_order :
    ¬ ∀ (message : Nat → String) (absolute : Path → Path) (directory : String)
      (entries first second : List DirEntry), (entries.map (·.name)).Nodup →
      first.Perm entries → second.Perm entries →
      discover message absolute directory true (.ok first) =
        discover message absolute directory true (.ok second) := by
  intro always
  have same := always toString id "d" dangling dangling dangling.reverse (by decide) (.refl _)
    dangling.reverse_perm
  have last : discover toString id "d" true (.ok dangling) =
      .error ⟨"dsio::ShardSet::discover: cannot read 'd': 2", none⟩ := by decide
  have skipped : discover toString id "d" true (.ok dangling.reverse) =
      .ok [⟨"d/a", 0, 1⟩] := by decide
  rw [last, skipped] at same
  cases same

end ShardSet

end Dsio
