import RevisionLog.Buffer
import RevisionLog.Zlib.Stream

/-!
# Inflaters

An inflater shows the bytes that a compressed stream decodes to, in order and with a cursor. It
remembers two positions: the one it reports, and how far its decoder has come. They differ only
after a failure, because a read past the end uses up what there is without moving the reported
position. Going back restarts the decoder (`Inflater.seek`).
-/

namespace RevisionLog

/-- A compressed stream with a cursor on what it decodes to. -/
structure Inflater where
  stream : Zlib.Stream
  /-- The position that is reported. -/
  position : Nat
  /-- How many bytes the decoder has delivered. -/
  taken : Nat
  deriving DecidableEq

namespace Inflater

/-- An inflater at the start of a compressed byte string. -/
def ofBytes (bytes : Bytes) : Inflater := ⟨.decode bytes, 0, 0⟩

/-- The number of decoded bytes that the decoder has still to deliver. -/
def available (inflater : Inflater) : Nat := inflater.stream.output.size - inflater.taken

/-- The next `count` bytes of the decoder. -/
def next (inflater : Inflater) (count : Nat) : Bytes :=
  (inflater.stream.output.extract inflater.taken (inflater.taken + count)).toList

/-- The fault of running off the end of the stream, given the one for a stream that is complete. -/
def endFault (inflater : Inflater) (ifComplete : Fault) : Fault :=
  match inflater.stream.ending with
  | .complete => ifComplete
  | .incomplete => .incompleteStream
  | .malformed => .corruptStream

/-- The number of bytes that the stream decodes to, if it is complete. -/
def length (inflater : Inflater) : Except Fault Nat :=
  match inflater.stream.ending with
  | .complete => .ok inflater.stream.output.size
  | .incomplete => .error .incompleteStream
  | .malformed => .error .corruptStream

/-- An operation on an inflater, which may change it even if it fails. -/
abbrev Action (α : Type) := ExceptT Fault (StateM Inflater) α

/-- Reads exactly `count` bytes. Where there are fewer, the decoder comes to its end. -/
def read (count : Nat) : Action Bytes := fun inflater =>
  if count ≤ inflater.available then
    (.ok (inflater.next count),
      { inflater with
        position := inflater.position + count
        taken := inflater.taken + count })
  else
    (.error (inflater.endFault .inflatedEnd),
      { inflater with taken := inflater.stream.output.size })

/-- Passes over `count` bytes. Past the end of a complete stream the position moves with the
decoder; where the stream breaks off it stays. As in `Buffer.skip`, positions of `2 ^ 64` and more
are outside the model. -/
def skip (count : Nat) : Action Unit := fun inflater =>
  if count ≤ inflater.available then
    (.ok (),
      { inflater with
        position := inflater.position + count
        taken := inflater.taken + count })
  else
    let passed := if inflater.stream.ending = .complete then inflater.available else 0
    (.error (inflater.endFault .inflatedSkip),
      { inflater with
        position := inflater.position + passed
        taken := inflater.stream.output.size })

/-- Moves to `target`: onward by skipping, back by starting again. -/
def seek (target : Nat) : Action Unit := fun inflater =>
  if target < inflater.position then skip target { inflater with position := 0, taken := 0 }
  else skip (target - inflater.position) inflater

/-! ## What the operations do -/

section Operations

variable {inflater : Inflater} {count target : Nat}

theorem next_eq (inflater : Inflater) (count : Nat) :
    inflater.next count = (inflater.stream.output.toList.drop inflater.taken).take count := by
  rw [next, Array.toList_extract, List.extract_eq_take_drop, Nat.add_sub_cancel_left]

theorem read_of_le (h : count ≤ inflater.available) :
    read count inflater =
      (.ok (inflater.next count),
        { inflater with
          position := inflater.position + count
          taken := inflater.taken + count }) := if_pos h

theorem read_of_lt (h : inflater.available < count) :
    read count inflater =
      (.error (inflater.endFault .inflatedEnd),
        { inflater with taken := inflater.stream.output.size }) := if_neg (Nat.not_le_of_lt h)

theorem skip_of_le (h : count ≤ inflater.available) :
    skip count inflater =
      (.ok (),
        { inflater with
          position := inflater.position + count
          taken := inflater.taken + count }) := if_pos h

/-- A skip past the end of a complete stream comes to the end. -/
theorem skip_of_lt (h : inflater.available < count)
    (complete : inflater.stream.ending = .complete) :
    skip count inflater =
      (.error (inflater.endFault .inflatedSkip),
        { inflater with
          position := inflater.position + inflater.available
          taken := inflater.stream.output.size }) := by
  rw [skip, if_neg (Nat.not_le_of_lt h), if_pos complete]

theorem seek_of_lt (h : target < inflater.position) :
    seek target inflater = skip target { inflater with position := 0, taken := 0 } := if_pos h

theorem seek_of_le (h : inflater.position ≤ target) :
    seek target inflater = skip (target - inflater.position) inflater := if_neg (Nat.not_lt_of_le h)

end Operations

end Inflater

end RevisionLog
