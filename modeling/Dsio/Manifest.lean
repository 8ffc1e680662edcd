import Dsio.Library.Delimited
import Dsio.Library.OutStream
import Dsio.Outcome
import Dsio.Path
import Dsio.Shard

/-!
# Shard manifests

`ShardSet::load` parses a manifest and `ShardSet::save` writes one: a line
`path<TAB>offset<TAB>length` for each shard, with `#` comments and blank lines between
them. What `std::filesystem::relative` gives is an argument.
-/

namespace Dsio

open Delimited Output

abbrev Text := List Char

/-- `kManifestHeader`. -/
def manifestHeader : Text := "# dsio shard manifest v1".toList

/-! ## Parsing -/

/-- `std::from_chars` of a `uint64_t`: its leading digits, and what follows them. -/
def fromChars (text : Text) : Option (Nat × Text) :=
  let digits := text.takeWhile Char.isDigit
  let value := Nat.ofDigitChars 10 digits 0
  if digits = [] ∨ 2 ^ 64 ≤ value then none else some (value, text.dropWhile Char.isDigit)

/-- `parse_u64`. -/
def parseU64 (text : Text) : Option Nat :=
  if text = [] then none
  else
    match fromChars text with
    | some (value, []) => some value
    | some (_, _ :: _) | none => none

/-- `split_line`: the path, the offset and the length. -/
def splitLine (line : Text) : Option (Text × Text × Text) :=
  match cutAt '\t' line with
  | none => none
  | some (path, fields) =>
      match cutAt '\t' fields with
      | none => none
      | some (offset, length) => if '\t' ∈ length then none else some (path, offset, length)

/-- A path of a manifest in this directory. -/
def resolve (directory path : Path) : Path :=
  if ¬ path.IsAbsolute ∧ directory ≠ [] then directory.append path else path

/-- A line without its carriage return. -/
def chomp (line : Text) : Text := if line.getLast? = some '\r' then line.dropLast else line

/-- What one line gives: a shard, nothing, or what is wrong with it. An alignment of 0 is
a division by zero (`none`). -/
def loadLine (alignment : Nat) (directory : Path) (line : Text) :
    Option (Except String (Option Shard)) :=
  let line := chomp line
  if line = [] ∨ line.head? = some '#' then some (.ok none)
  else
    match splitLine line with
    | none => some (.error "expected `path<TAB>offset<TAB>length`")
    | some (path, offsetText, lengthText) =>
        if path = [] then some (.error "empty path")
        else
          match parseU64 offsetText, parseU64 lengthText with
          | some offset, some length =>
              if length = 0 then some (.error "zero-length shard")
              else if alignment = 0 then none
              else if offset % alignment ≠ 0 then
                some (.error ("offset " ++ toString offset ++ " is not a multiple of " ++
                  toString alignment))
              else if (offset + length) % 2 ^ 64 < offset then
                some (.error "offset + length overflows")
              else some (.ok (some ⟨String.ofList (resolve directory path), offset, length⟩))
          | some _, none | none, _ => some (.error "offset and length must be decimal numbers")

/-- The loop of `load`, after `number` lines. -/
def loadLines (alignment : Nat) (directory : Path) :
    Nat → List Text → ShardSet → Option (Except String ShardSet)
  | _, [], shards => some (.ok shards)
  | number, line :: rest, shards =>
      match loadLine alignment directory line with
      | none => none
      | some (.error message) => some (.error ("line " ++ toString (number + 1) ++ ": " ++ message))
      | some (.ok shard) =>
          loadLines alignment directory (number + 1) rest (shards ++ shard.toList)

/-- What an input stream gives: its text, up to a read that failed if there is one. -/
structure InStream where
  text : Text
  bad : Bool := false

/-- The lines `std::getline` gives: a line that a failed read breaks off is not one. -/
def InStream.lines (input : InStream) : List Text :=
  if input.bad ∧ input.text.getLast? ≠ some '\n' then (records '\n' input.text).dropLast
  else records '\n' input.text

/-- A stream that is read to its end gives all its lines. -/
@[simp] theorem InStream.lines_good (text : Text) :
    InStream.lines ⟨text, false⟩ = records '\n' text := by
  simp [InStream.lines]

/-- `load_error`. -/
def loadError (manifest message : String) : Error :=
  ⟨"dsio::ShardSet::load '" ++ manifest ++ "': " ++ message, none⟩

/-- `ShardSet::load`, of what opening the manifest gives. -/
def ShardSet.load (manifest : String) (alignment : Nat) (opened : Option InStream) :
    Option (Outcome ShardSet) :=
  match opened with
  | none => some (.error (loadError manifest "cannot open the manifest"))
  | some input =>
      match loadLines alignment (Path.parent manifest.toList) 0 input.lines [] with
      | none => none
      | some (.error message) => some (.error (loadError manifest message))
      | some (.ok shards) =>
          some (if input.bad then .error (loadError manifest "read failed") else .ok shards)

/-! ## Writing -/

/-- The path written for a shard: relative to the directory of the manifest when
possible. -/
def written (relative : Path → Path → Except Nat Path) (directory path : Path) : Path :=
  if directory = [] then path
  else
    match relative path directory with
    | .ok shorter => if shorter = [] then path else shorter
    | .error _ => path

/-- A number as `operator<<` prints it. -/
def decimal (number : Nat) : Text := Nat.toDigits 10 number

/-- The fields of the line of a shard. -/
def fields (path : Path) (shard : Shard) : Text :=
  path ++ '\t' :: (decimal shard.offset ++ '\t' :: decimal shard.length)

/-- What the loop of `save` inserts for a shard, one `operator<<` after the other. -/
def linePieces (path : Path) (shard : Shard) : List Text :=
  [path, ['\t'], decimal shard.offset, ['\t'], decimal shard.length, ['\n']]

/-- The loop of `save`, over the stream of the manifest. -/
def saveShards (relative : Path → Path → Except Nat Path) (filebuf : Filebuf) (directory : Path) :
    ShardSet → OutStream Char → Outcome Unit × OutStream Char
  | [], out => (.ok (), out)
  | shard :: rest, out =>
      let path := shard.path.toList
      if '\t' ∈ path ∨ '\n' ∈ path then
        (.error ⟨"dsio::ShardSet::save: path contains a tab or newline: '" ++ shard.path ++ "'",
          none⟩, out)
      else saveShards relative filebuf directory rest
        (out.insertAll filebuf (linePieces (written relative directory path) shard))

/-- `ShardSet::save`, with the stream as its destruction leaves it, when the manifest
opens (`opens`). -/
def ShardSet.save (relative : Path → Path → Except Nat Path) (filebuf : Filebuf) (opens : Bool)
    (manifest : String) (shards : ShardSet) : Outcome Unit × Option (OutStream Char) :=
  if opens = false then
    (.error ⟨"dsio::ShardSet::save: cannot write '" ++ manifest ++ "'", none⟩, none)
  else
    match saveShards relative filebuf (Path.parent manifest.toList) shards
        (OutStream.insertAll filebuf [manifestHeader, ['\n']] {}) with
    | (.error error, out) => (.error error, some (out.close filebuf.toDevice))
    | (.ok (), out) =>
        (if out.failed then
            .error ⟨"dsio::ShardSet::save: write failed for '" ++ manifest ++ "'", none⟩
          else .ok (), some (out.close filebuf.toDevice))

end Dsio
