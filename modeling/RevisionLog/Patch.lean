import RevisionLog.Reader

/-!
# Patches

A patch is a sequence of fragments, each of which replaces a span of a base text by data. It is
stored as the fragments one after another, each as three big-endian words (start, end and length)
and the data. `Patch.read` decodes fragments until the reader is empty; each of them uses up at
least twelve bytes (`Fragment.advances_read`). `Patch.apply` checks that the fragments are in order
and inside the base before it builds the new text.
-/

namespace RevisionLog

/-- The bytes from `start` to `stop` of a base give way to `data`. -/
structure Fragment where
  start : Int32
  stop : Int32
  data : Bytes
  deriving DecidableEq

/-- A sequence of fragments. -/
abbrev Patch := List Fragment

namespace Fragment

/-- The number of bytes that a fragment inserts, as the stored word has it. -/
def length (fragment : Fragment) : Int32 := Int32.ofNat fragment.data.length

/-- The stored form of a fragment. -/
def write (fragment : Fragment) : Bytes :=
  Bytes.ofInt32 fragment.start ++ Bytes.ofInt32 fragment.stop ++ Bytes.ofInt32 fragment.length ++
    fragment.data

/-- Decodes a fragment. The length is checked before any data is read. -/
def read : Reader.Action Fragment := do
  let start ← Reader.int32
  let stop ← Reader.int32
  let length ← Reader.int32
  if length < 0 then throw (.negativeFragment length) else
  let left ← Reader.getLeft
  if left < length.toInt.toNat then throw (.fragmentPastEnd length left) else
  let data ← Reader.read length.toInt.toNat
  return ⟨start, stop, data⟩

theorem advances_read : Reader.Advances 12 read := by
  refine Reader.advances_int32.bind fun _ => (Reader.advances_int32.bind fun _ =>
    (Reader.advances_int32.bind (n := 0) fun _ => ?_))
  split
  · exact Reader.advances_throw _ _
  · refine Reader.advances_getLeft.bind (n := 0) fun _ => ?_
    split
    · exact Reader.advances_throw _ _
    · exact ((Reader.advances_read _).mono (Nat.zero_le _)).bind fun _ => Reader.advances_pure _

end Fragment

namespace Patch

/-- The stored form of a patch. -/
def write (patch : Patch) : Bytes := patch.flatMap Fragment.write

/-- Decodes fragments until the reader is empty. -/
def read : Reader.Action Patch := fun reader =>
  match _empty : Reader.isEmpty reader with
  | (.error fault, reader) => (.error fault, reader)
  | (.ok true, reader) => (.ok [], reader)
  | (.ok false, reader) =>
    match _first : Fragment.read reader with
    | (.error fault, reader) => (.error fault, reader)
    | (.ok fragment, reader) =>
      let (fragments, reader) := read reader
      (fragments.map (fragment :: ·), reader)
termination_by reader => reader.left
decreasing_by
  obtain ⟨rfl, _⟩ := Reader.left_pos_of_isEmpty _empty
  have := Fragment.advances_read _first
  omega

/-- The length of the text that a patch makes of a base, when its first `done` bytes are dealt with.
The fragments have to start behind one another and end inside the base. What they insert is counted
as they store it. -/
def outputLength (baseLength : Nat) : (done : Nat) → Patch → Except Fault Int
  | done, [] => .ok (baseLength - done)
  | done, fragment :: patch =>
    let start := fragment.start.toInt
    let stop := fragment.stop.toInt
    if done ≤ start ∧ start ≤ stop ∧ stop ≤ baseLength then do
      let behind ← outputLength baseLength stop.toNat patch
      return start - done + fragment.length.toInt + behind
    else .error (.fragmentOutOfOrder fragment.start fragment.stop baseLength)

/-- The bytes of the base between two positions; nothing is read between equal ones. -/
def span (start stop : Nat) : Reader.Action Bytes :=
  if start = stop then return [] else do
    Reader.seek start
    Reader.read (stop - start)

/-- The text that a patch makes of what is behind the first `done` bytes of the base. -/
def splice (baseLength : Nat) : (done : Nat) → Patch → Reader.Action Bytes
  | done, [] => span done baseLength
  | done, fragment :: patch => do
    let before ← span done fragment.start.toInt.toNat
    let behind ← splice baseLength fragment.stop.toInt.toNat patch
    return before ++ fragment.data ++ behind

/-- A declared length that leaves it to the patch how long the text is. -/
def unknownLength : Int32 := -1

/-- The text that a patch makes of a base, of the declared length unless that is unknown. -/
def apply (declared : Int32) (patch : Patch) : Reader.Action Bytes := do
  let baseLength ← Reader.getLength
  let computed ← outputLength baseLength 0 patch
  if declared ≠ unknownLength ∧ declared.toInt ≠ computed then
    throw (.patchedLength computed declared)
  else splice baseLength 0 patch

end Patch

end RevisionLog
