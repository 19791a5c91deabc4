import Mathlib
import RevisionLog.Proofs.Reader.Families

/-!
# Windows of windows

Where the windows of a buffer lie can be told from its own window: they are those that end inside it
(`Buffer.windows`), and a window of a window is one of the whole (`Buffer.window_nested`). The place
of a window comes from a file and is tested in words, where a sum can wrap around; no window that is
too long gets through (`Buffer.windowOfWords_eq`). Together with what holds of a whole family this
says that nothing is ever looked up outside of the bytes (`Buffer.family_inside`).
-/

namespace RevisionLog.Buffer

variable {bytes : Bytes} {buffer inner innermost : Buffer} {offset count target slot : Nat}
  {family : List Buffer}

/-! ## Windows -/

theorem window_of_le (within : offset + count ≤ buffer.length) :
    buffer.window offset count = .ok ⟨buffer.bytes, buffer.start + offset, count, 0⟩ :=
  if_pos within

/-- A window of a window is a window, wherever the cursors have gone. -/
theorem window_nested {offset' count' : Nat} (found : buffer.window offset count = .ok inner)
    (again : { inner with position := target }.window offset' count' = .ok innermost) :
    buffer.window (offset + offset') count' = .ok innermost := by
  obtain ⟨within, rfl⟩ := window_eq_ok found
  obtain ⟨deeper, rfl⟩ := window_eq_ok again
  have deeper : offset' + count' ≤ count := deeper
  rw [window_of_le (by omega), ← Nat.add_assoc]

/-- The sum of two words, if it is one: a sum that wraps around is smaller than its terms. -/
def sum? (a b : UInt64) : Option UInt64 := if a + b < a then none else some (a + b)

theorem sum?_eq (a b : UInt64) :
    sum? a b = if a.toNat + b.toNat < 2 ^ 64 then some (a + b) else none := by
  have sum : (a + b).toNat = (a.toNat + b.toNat) % 2 ^ 64 := UInt64.toNat_add a b
  have bounds := And.intro a.toNat_lt b.toNat_lt
  have wraps : a + b < a ↔ ¬a.toNat + b.toNat < 2 ^ 64 := by
    rw [UInt64.lt_iff_toNat_lt, sum]
    omega
  simp only [sum?, wraps, ite_not]

/-- A window whose place is given and tested in words. -/
def windowOfWords (buffer : Buffer) (offset count : UInt64) : Except Fault Buffer :=
  match sum? offset count with
  | some stop =>
    if stop ≤ UInt64.ofNat buffer.length then
      .ok ⟨buffer.bytes, buffer.start + offset.toNat, count.toNat, 0⟩
    else .error (.windowPastEnd offset.toNat count.toNat buffer.length)
  | none => .error (.windowPastEnd offset.toNat count.toNat buffer.length)

/-- The test in words is the one in numbers, since no window is longer than a word can tell. -/
theorem windowOfWords_eq (word : buffer.length < 2 ^ 64) (offset count : UInt64) :
    buffer.windowOfWords offset count = buffer.window offset.toNat count.toNat := by
  rw [windowOfWords, sum?_eq, window]
  by_cases fits : offset.toNat + count.toNat < 2 ^ 64
  · have stop : (offset + count).toNat = offset.toNat + count.toNat := by
      rw [UInt64.toNat_add, Nat.mod_eq_of_lt fits]
    have tested : offset + count ≤ UInt64.ofNat buffer.length ↔
        offset.toNat + count.toNat ≤ buffer.length := by
      rw [UInt64.le_iff_toNat_le, UInt64.toNat_ofNat_of_lt' word, stop]
    simp only [if_pos fits, tested]
  · have beyond : ¬offset.toNat + count.toNat ≤ buffer.length := by omega
    simp only [if_neg fits, if_neg beyond]

/-! ## Summary -/

/-- The window and what is left of it can be looked up in the bytes, and both are there in full. -/
structure Shows (bytes : Bytes) (buffer : Buffer) : Prop where
  slice : buffer.slice = (bytes.drop buffer.start).take buffer.length
  slice_length : buffer.slice.length = buffer.length
  remaining : buffer.remaining = buffer.slice.drop buffer.position
  left : buffer.position + buffer.left = buffer.length

/-- Which windows a buffer has, and what they show. -/
structure Windows (buffer : Buffer) : Prop where
  exists_iff : ∀ offset count,
    (∃ inner, buffer.window offset count = .ok inner) ↔ offset + count ≤ buffer.length
  shows : ∀ {offset count inner}, buffer.window offset count = .ok inner →
    inner.slice = (buffer.slice.drop offset).take count ∧ inner.length = count ∧
      inner.position = 0
  /-- A window of a window is a window, wherever the cursor of the one between has gone. -/
  nested : ∀ {offset count inner target offset' count' innermost},
    buffer.window offset count = .ok inner →
      { inner with position := target }.window offset' count' = .ok innermost →
        buffer.window (offset + offset') count' = .ok innermost
  words : buffer.length < 2 ^ 64 → ∀ offset count : UInt64,
    buffer.windowOfWords offset count = buffer.window offset.toNat count.toNat

/-- What operations on a family do that has the buffer in a slot. -/
structure Effects (family : List Buffer) (slot : Nat) (buffer : Buffer) : Prop where
  fails : ∀ {operation fault}, (step family slot operation).1 = some (.error fault) →
    (step family slot operation).2 = family
  reads : ∀ {operation count tell}, operation.reading? buffer.left = some (count, tell) →
    step family slot operation =
      if count ≤ buffer.left then
        (some (.ok (tell ((buffer.slice.drop buffer.position).take count))),
          family.set slot { buffer with position := buffer.position + count })
      else (some (.error (.shortRead count buffer.position buffer.left)), family)
  moves : ∀ {operation target}, operation.moving? buffer.position = some target →
    (target ≤ buffer.length → step family slot operation =
      (some (.ok .done), family.set slot { buffer with position := target })) ∧
    (buffer.length < target → ∃ fault, step family slot operation =
      (some (.error fault), family))
  windows : ∀ {offset count inner}, buffer.window offset count = .ok inner →
    step family slot (.window offset count) = (some (.ok .done), family ++ [inner])
  clones : step family slot .clone = (some (.ok .done), family ++ [buffer])
  /-- A buffer keeps its window, whatever is done. -/
  stays : ∀ later, ∃ target, target ≤ buffer.length ∧
    (run family later)[slot]? = some { buffer with position := target }
  /-- What is done with other buffers does not change a buffer at all. -/
  apart : ∀ later, (∀ entry ∈ later, entry.1 ≠ slot) → (run family later)[slot]? = some buffer

theorem Inside.shows (inside : buffer.Inside bytes) : buffer.Shows bytes where
  slice := by rw [slice_eq, inside.shared]
  slice_length := inside.fits.length_slice
  remaining := by
    have length := inside.fits.length_slice
    rw [remaining, span_eq_slice (inside.position_add_le (Nat.le_refl _)), left,
      List.take_of_length_le (by rw [List.length_drop, length])]
  left := Nat.add_sub_of_le inside.cursor

theorem windows (buffer : Buffer) : buffer.Windows where
  exists_iff offset count :=
    ⟨fun ⟨_, found⟩ => (window_eq_ok found).1, fun within => ⟨_, window_of_le within⟩⟩
  shows found := by
    refine ⟨slice_window found, ?_⟩
    obtain ⟨-, rfl⟩ := window_eq_ok found
    exact ⟨rfl, rfl⟩
  nested := window_nested
  words := windowOfWords_eq

theorem Inside.effects (inside : buffer.Inside bytes) (member : family[slot]? = some buffer) :
    Effects family slot buffer where
  fails {operation fault} failed := by
    obtain ⟨_, run⟩ | ⟨value, target, made, -, -, run⟩ := inside.operate operation
    · rw [step_of_error member run]
    · rw [step_of_member member run] at failed
      cases failed
  reads := inside.step_of_reading? member
  moves := step_of_moving? member
  windows {offset count inner} found := by
    have run : buffer.operate (.window offset count) = (.ok .done, buffer, some inner) := by
      rw [Buffer.operate, found]
    rw [step_of_member member run, set_of_member member]
    rfl
  clones := by
    rw [step_of_member member rfl, set_of_member member]
    rfl
  stays := inside.getElem?_run member
  apart := getElem?_run_of_ne member

/-- **Windows and cursors never leave their bytes.** Whatever has been done with a buffer of some
bytes and with those that were made from it, failing or not, each of them lies inside the bytes and
has its cursor in its window, so that what it shows is there to be looked up. It has exactly the
windows that end inside it, also if the place is tested in words, and a window of a window is one of
the whole. What is read is what is at the cursor, which moves over it. What fails changes nothing,
and nothing that is done with one buffer changes another. -/
theorem family_inside (bytes : Bytes) (history : List (Nat × Operation)) {slot : Nat}
    {buffer : Buffer} (member : (run [ofBytes bytes] history)[slot]? = some buffer) :
    buffer.Inside bytes ∧ buffer.Shows bytes ∧ buffer.Windows ∧
      Effects (run [ofBytes bytes] history) slot buffer := by
  have start : ∀ buffer ∈ [ofBytes bytes], buffer.Inside bytes :=
    List.forall_mem_singleton.2 (inside_ofBytes bytes)
  have inside := inside_run start history buffer (List.mem_of_getElem? member)
  exact ⟨inside, inside.shows, buffer.windows, inside.effects member⟩

/-- The ten digits. -/
def digits : Bytes := [0x30, 0x31, 0x32, 0x33, 0x34, 0x35, 0x36, 0x37, 0x38, 0x39]

/-- Makes a window of the digits, reads all of it, makes a window of that, skips a byte there and
fails to skip five more. -/
def nesting : List (Nat × Operation) :=
  [(0, .window 2 5), (1, .ask .rest .rest), (1, .window 1 3), (2, .ask (.skip 1) (.skip 1)),
    (2, .ask (.skip 5) (.skip 5))]

/-- The window of the window shows the three digits from the fourth on. After one is skipped two are
left to read, and another window of it cannot end beyond it, even if the sum wraps around. -/
theorem family_inside_nesting :
    ∃ buffer, (run [ofBytes digits] nesting)[2]? = some buffer ∧
      buffer.slice = [0x33, 0x34, 0x35] ∧
      (step (run [ofBytes digits] nesting) 2 (.ask .rest .rest)).1 =
        some (.ok (.bytes [0x34, 0x35])) ∧
      buffer.windowOfWords 0xffffffffffffffff 2 =
        .error (.windowPastEnd 0xffffffffffffffff 2 3) := by
  have member : (run [ofBytes digits] nesting)[2]? = some ⟨digits.toArray, 3, 3, 1⟩ := rfl
  obtain ⟨-, shows, windows, effects⟩ := family_inside digits nesting member
  refine ⟨_, member, shows.slice, ?_, windows.words (by decide) _ _⟩
  rw [effects.reads rfl]
  rfl

end RevisionLog.Buffer
