import RevisionLog.Fault

/-!
# Buffers

A buffer is a window into a shared byte string together with a cursor. `Buffer.slice` is what the
window shows; a window of a buffer shows a part of its slice (`slice_window`). Operations on the
cursor either succeed or leave the buffer as it was: they are `Buffer.Action`s, which return the
moved buffer only on success.
-/

namespace RevisionLog

/-- A window of `length` bytes from `start` into shared bytes, and a cursor relative to it. -/
structure Buffer where
  bytes : Array UInt8
  start : Nat
  length : Nat
  position : Nat
  deriving DecidableEq

namespace Buffer

/-- A buffer of a whole byte string, with the cursor at its start. -/
def ofBytes (bytes : Bytes) : Buffer := ⟨bytes.toArray, 0, bytes.length, 0⟩

/-- The buffer of no bytes. -/
def empty : Buffer := ofBytes []

/-- The `count` bytes at `offset` of the window. -/
def span (buffer : Buffer) (offset count : Nat) : Bytes :=
  (buffer.bytes.extract (buffer.start + offset) (buffer.start + offset + count)).toList

/-- All bytes in the window, wherever the cursor is. -/
def slice (buffer : Buffer) : Bytes := buffer.span 0 buffer.length

/-- The first byte in the window, if there is one. -/
def first? (buffer : Buffer) : Option UInt8 :=
  if 0 < buffer.length then buffer.bytes[buffer.start]? else none

/-- The number of bytes from the cursor to the end of the window. -/
def left (buffer : Buffer) : Nat := buffer.length - buffer.position

/-- The bytes from the cursor to the end of the window. -/
def remaining (buffer : Buffer) : Bytes := buffer.span buffer.position buffer.left

/-- The window of `count` bytes at `offset` of this window, with a cursor of its own. -/
def window (buffer : Buffer) (offset count : Nat) : Except Fault Buffer :=
  if offset + count ≤ buffer.length then .ok ⟨buffer.bytes, buffer.start + offset, count, 0⟩
  else .error (.windowPastEnd offset count buffer.length)

/-- An operation on the cursor, which moves it only on success. -/
abbrev Action (α : Type) := StateT Buffer (Except Fault) α

/-- Moves the cursor to `target`, at most to the end. -/
def seek (target : Nat) : Action Unit := fun buffer =>
  if target ≤ buffer.length then .ok ((), { buffer with position := target })
  else .error (.seekPastEnd target buffer.length)

/-- Moves the cursor forward by `count` bytes, at most to the end. Positions are natural numbers: a
sum of `2 ^ 64` or more, which no word holds, is outside the model. -/
def skip (count : Nat) : Action Unit := fun buffer =>
  if buffer.position + count ≤ buffer.length then
    .ok ((), { buffer with position := buffer.position + count })
  else .error (.skipPastEnd count)

/-- Reads exactly `count` bytes. -/
def read (count : Nat) : Action Bytes := fun buffer =>
  if count ≤ buffer.left then
    .ok (buffer.span buffer.position count, { buffer with position := buffer.position + count })
  else .error (.shortRead count buffer.position buffer.left)

/-- Reads a signed 32-bit number. -/
def int32 : Action Int32 := do return Bytes.int32 (← read 4)

/-- Reads an unsigned 64-bit number. -/
def uint64 : Action UInt64 := do return Bytes.uint64 (← read 8)

/-- Reads everything that is left. -/
def rest : Action Bytes := fun buffer => read buffer.left buffer

/-- What an action returns at a position. -/
def readAt {α : Type} (buffer : Buffer) (position : Nat) (action : Action α) : Except Fault α := do
  let (_, there) ← seek position buffer
  let (value, _) ← action there
  return value

/-- Reads `count` bytes or as many as there are. -/
def readUpTo (count : Nat) (buffer : Buffer) : Bytes × Buffer :=
  let taken := min count buffer.left
  (buffer.span buffer.position taken, { buffer with position := buffer.position + taken })

/-- Whether every byte has been read. -/
def isEmpty (buffer : Buffer) : Bool := buffer.length ≤ buffer.position

/-! ## What a buffer shows -/

theorem span_eq (buffer : Buffer) (offset count : Nat) :
    buffer.span offset count = (buffer.bytes.toList.drop (buffer.start + offset)).take count := by
  rw [span, Array.toList_extract, List.extract_eq_take_drop, Nat.add_sub_cancel_left]

theorem slice_eq (buffer : Buffer) :
    buffer.slice = (buffer.bytes.toList.drop buffer.start).take buffer.length := by
  simp [slice, span_eq]

@[simp] theorem slice_ofBytes (bytes : Bytes) : (ofBytes bytes).slice = bytes := by
  simp [slice_eq, ofBytes]

theorem slice_window {buffer inner : Buffer} {offset count : Nat}
    (h : buffer.window offset count = .ok inner) :
    inner.slice = (buffer.slice.drop offset).take count := by
  unfold window at h
  split at h
  · obtain rfl := Except.ok.inj h
    simp only [slice_eq, List.drop_take, List.take_take, List.drop_drop]
    congr 1
    omega
  · simp at h

/-! ## What the operations do -/

section Operations

variable {buffer : Buffer} {count target : Nat}

theorem seek_of_le (h : target ≤ buffer.length) :
    seek target buffer = .ok ((), { buffer with position := target }) := if_pos h

theorem seek_of_lt (h : buffer.length < target) :
    seek target buffer = .error (.seekPastEnd target buffer.length) := if_neg (Nat.not_le_of_lt h)

theorem skip_of_le (h : buffer.position + count ≤ buffer.length) :
    skip count buffer = .ok ((), { buffer with position := buffer.position + count }) := if_pos h

theorem skip_of_lt (h : buffer.length < buffer.position + count) :
    skip count buffer = .error (.skipPastEnd count) := if_neg (Nat.not_le_of_lt h)

theorem read_of_le (h : count ≤ buffer.left) :
    read count buffer =
      .ok (buffer.span buffer.position count, { buffer with position := buffer.position + count }) :=
  if_pos h

theorem read_of_lt (h : buffer.left < count) :
    read count buffer = .error (.shortRead count buffer.position buffer.left) :=
  if_neg (Nat.not_le_of_lt h)

end Operations

/-- A read moves the cursor over exactly the bytes it returns, inside the window. -/
theorem read_eq_ok {buffer after : Buffer} {count : Nat} {bytes : Bytes}
    (h : read count buffer = .ok (bytes, after)) :
    count ≤ buffer.left ∧ bytes = buffer.span buffer.position count ∧
      after = { buffer with position := buffer.position + count } := by
  unfold read at h
  split at h
  · exact ⟨‹_›, by simp_all⟩
  · simp at h

/-! ## Progress -/

/-- Whenever the action succeeds, it leaves at most what there was less `count` bytes. -/
def Advances {α : Type} (count : Nat) (action : Action α) : Prop :=
  ∀ ⦃buffer value after⦄, action buffer = .ok (value, after) → after.left ≤ buffer.left - count

theorem advances_pure {α : Type} (value : α) : Advances 0 (pure value) := by
  intro buffer _ after h
  obtain ⟨-, rfl⟩ := Prod.mk.inj (Except.ok.inj h)
  exact Nat.le_refl _

theorem advances_throw {α : Type} (count : Nat) (fault : Fault) :
    Advances count (throw fault : Action α) := by
  intro buffer value after h
  cases h

theorem Advances.bind {α β : Type} {m n : Nat} {action : Action α} {next : α → Action β}
    (first : Advances m action) (second : ∀ value, Advances n (next value)) :
    Advances (m + n) (action >>= next) := by
  intro buffer value after h
  simp only [Bind.bind, StateT.bind] at h
  cases run : action buffer with
  | error => simp [run, Except.bind] at h
  | ok result =>
    simp only [run, Except.bind] at h
    have := first run
    have := second _ h
    omega

theorem Advances.mono {α : Type} {m n : Nat} {action : Action α} (h : Advances n action)
    (le : m ≤ n) : Advances m action := by
  intro buffer value after run
  have := h run
  omega

theorem advances_read (count : Nat) : Advances count (read count) := by
  intro buffer bytes after h
  obtain ⟨-, -, rfl⟩ := read_eq_ok h
  simp only [left]
  omega

theorem advances_int32 : Advances 4 int32 := (advances_read 4).bind fun _ => advances_pure _

theorem advances_uint64 : Advances 8 uint64 := (advances_read 8).bind fun _ => advances_pure _

theorem advances_skip (count : Nat) : Advances count (skip count) := by
  intro buffer value after h
  unfold skip at h
  split at h
  · obtain ⟨-, rfl⟩ := Prod.mk.inj (Except.ok.inj h)
    simp only [left]
    omega
  · cases h

end Buffer

end RevisionLog
