import RevisionLog.Fault
import RevisionLog.Text.Blank
import RevisionLog.Text.Utf8

/-!
# Metadata

The text of a file revision may start with a block that says where the file was copied from: a
marker of two bytes, lines of a key, a colon and a value, and the marker again. `Metadata.parse`
reads the block and tells where the content behind it starts.
-/

namespace RevisionLog

/-- The metadata of a file revision. -/
structure Metadata where
  /-- Keys with their values, in the order of the lines. -/
  entries : List (String × String) := []
  /-- Where the content starts behind the block; 0 if there is none. -/
  contentOffset : Nat := 0
  deriving DecidableEq

namespace Metadata

/-- The bytes before and behind a block. -/
def marker : Bytes := [1, 10]

/-- The position of the first marker, given that of the first byte. -/
def findMarker (position : Nat) : Bytes → Option Nat
  | [] => none
  | b :: rest => if marker.isPrefixOf (b :: rest) then some position else findMarker (position + 1) rest

/-- The parts of a byte string between its line feeds. -/
def lines (bytes : Bytes) : List Bytes :=
  bytes.foldr
    (fun b lines => if b = 10 then [] :: lines
      else match lines with
        | line :: lines => (b :: line) :: lines
        | [] => [[b]])
    [[]]

/-- A key and a value, from before and behind the first colon. -/
def parseLine (line : Bytes) : Except Fault (String × String) :=
  match line.dropWhile (· ≠ 58) with
  | [] => .error (.metadataWithoutKey (Text.ofBytes line))
  | _ :: value =>
    .ok (Text.ofBytes (line.takeWhile (· ≠ 58)), String.ofList (Text.trim (Text.decode value)))

/-- Reads the block at the start of a text, if there is one. -/
def parse (text : Bytes) : Except Fault Metadata :=
  if text.length < 4 ∨ ¬marker.isPrefixOf text then .ok {}
  else
    match findMarker 0 (text.drop 2) with
    | none => .error .unclosedMetadata
    | some stop => do
      let entries ← ((lines ((text.drop 2).take stop)).filter (· ≠ [])).mapM parseLine
      return ⟨entries, 4 + stop⟩

/-- Whether there are no entries. -/
def isEmpty (metadata : Metadata) : Bool := metadata.entries.isEmpty

/-- The value of the first entry with a key. -/
def get? (metadata : Metadata) (key : String) : Option String := metadata.entries.lookup key

/-- The path that the file was copied from. -/
def copySource (metadata : Metadata) : Option String := metadata.get? "copy"

/-- The id of the revision that the file was copied from, as it is written. -/
def copyRevision (metadata : Metadata) : Option String := metadata.get? "copyrev"

end Metadata

end RevisionLog
