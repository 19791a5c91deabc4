import RevisionLog.Reader

/-!
# What a reader shows

A reader `Reader.At` a position of a text shows that text, and the next byte it delivers is the one
at the position. An inflater over a complete stream is there as long as nothing has failed.

* On readers at the same position of the same text the primitive actions agree: each either returns
  the same value and leaves both at one position, or fails on both (`Reader.uniform_read`,
  `Reader.uniform_seek`). So does every action built from them (`Reader.Uniform.bind`), which is why
  a text is all that matters of the reader it is read through (`Reader.Uniform.toOption_eq`).
* A reader is `Reader.Damaged` if its stream is not complete. Nothing can be learnt from it about
  where its content ends, so whatever asks for that fails.
-/

namespace RevisionLog

namespace Buffer

/-- The window lies inside the shared bytes. -/
def Fits (buffer : Buffer) : Prop := buffer.start + buffer.length ≤ buffer.bytes.size

instance (buffer : Buffer) : Decidable buffer.Fits := inferInstanceAs (Decidable (_ ≤ _))

theorem fits_ofBytes (bytes : Bytes) : (ofBytes bytes).Fits := by simp [Fits, ofBytes]

theorem Fits.length_slice {buffer : Buffer} (fits : buffer.Fits) :
    buffer.slice.length = buffer.length := by
  rw [slice_eq, List.length_take, List.length_drop, Array.length_toList]
  have : buffer.start + buffer.length ≤ buffer.bytes.size := fits
  omega

/-- What lies inside the window is a part of its slice. -/
theorem span_eq_slice {buffer : Buffer} {offset count : Nat}
    (inside : offset + count ≤ buffer.length) :
    buffer.span offset count = (buffer.slice.drop offset).take count := by
  rw [span_eq, slice_eq, List.drop_take, List.take_take, List.drop_drop, Nat.min_eq_left (by omega)]

theorem window_eq_ok {buffer inner : Buffer} {offset count : Nat}
    (h : buffer.window offset count = .ok inner) :
    offset + count ≤ buffer.length ∧ inner = ⟨buffer.bytes, buffer.start + offset, count, 0⟩ := by
  unfold window at h
  split at h
  · exact ⟨‹_›, (Except.ok.inj h).symm⟩
  · cases h

theorem Fits.window {buffer inner : Buffer} {offset count : Nat} (fits : buffer.Fits)
    (h : buffer.window offset count = .ok inner) : inner.Fits := by
  obtain ⟨inside, rfl⟩ := window_eq_ok h
  have : buffer.start + buffer.length ≤ buffer.bytes.size := fits
  show buffer.start + offset + count ≤ buffer.bytes.size
  omega

end Buffer

namespace Reader

/-! ## Readers in step with a text -/

/-- The reader shows the text with its cursor at the position, and delivers the bytes from there. -/
inductive At (text : Bytes) (position : Nat) : Reader → Prop
  | plain {buffer : Buffer} (fits : buffer.Fits) (slice : buffer.slice = text)
      (cursor : buffer.position = position) (inside : position ≤ text.length) :
      At text position (.plain buffer)
  | inflating (inside : position ≤ text.length) :
      At text position (.inflating ⟨⟨text.toArray, .complete⟩, position, position⟩)

/-- The content of the reader is compressed, and its stream does not come to a proper end. -/
inductive Damaged : Reader → Prop
  | inflating {inflater : Inflater} (ending : inflater.stream.ending ≠ .complete) :
      Damaged (.inflating inflater)

variable {text : Bytes} {position : Nat} {reader : Reader}

theorem at_ofBytes (text : Bytes) : At text 0 (.ofBytes text) :=
  .plain (Buffer.fits_ofBytes text) (Buffer.slice_ofBytes text) rfl (Nat.zero_le _)

theorem At.inside (h : At text position reader) : position ≤ text.length := by
  cases h <;> assumption

theorem At.length_eq (h : At text position reader) : reader.length = .ok text.length := by
  cases h with
  | plain fits slice => rw [Reader.length, ← slice, fits.length_slice]
  | inflating => rfl

theorem At.position_eq (h : At text position reader) : reader.position = position := by
  cases h with
  | plain _ _ cursor => exact cursor
  | inflating => rfl

theorem Damaged.length_eq (h : Damaged reader) : ∃ fault, reader.length = .error fault := by
  obtain ⟨ending⟩ := h
  rename_i inflater
  rw [Reader.length, Inflater.length]
  split
  · exact absurd ‹_› ending
  · exact ⟨_, rfl⟩
  · exact ⟨_, rfl⟩

/-- A read inside the text returns its bytes and passes over them. -/
theorem At.read (h : At text position reader) (count : Nat)
    (fits : position + count ≤ text.length) :
    ∃ moved, Reader.read count reader = (.ok ((text.drop position).take count), moved) ∧
      At text (position + count) moved := by
  cases h with
  | @plain buffer bounds slice cursor =>
    subst cursor slice
    have within : buffer.position + count ≤ buffer.length := by rwa [bounds.length_slice] at fits
    have enough : count ≤ buffer.left := by rw [Buffer.left]; omega
    have run := Buffer.read_of_le enough
    rw [Buffer.span_eq_slice within] at run
    exact ⟨_, choose_plain_ok run, .plain bounds rfl rfl fits⟩
  | inflating =>
    have enough : count ≤ text.toArray.size - position := by rw [List.size_toArray]; omega
    have bytes := Inflater.next_eq ⟨⟨text.toArray, .complete⟩, position, position⟩ count
    refine ⟨_, ?_, .inflating fits⟩
    rw [← bytes]
    exact choose_inflating (Inflater.read_of_le enough)

/-- A read past the end of the text fails. -/
theorem At.read_error (h : At text position reader) {count : Nat}
    (short : text.length < position + count) :
    ∃ fault moved, Reader.read count reader = (.error fault, moved) := by
  cases h with
  | @plain buffer bounds slice cursor inside =>
    subst cursor slice
    rw [bounds.length_slice] at short inside
    exact ⟨_, _, choose_plain_error (Buffer.read_of_lt (by rw [Buffer.left]; omega))⟩
  | inflating inside =>
    have few : text.toArray.size - position < count := by rw [List.size_toArray]; omega
    exact ⟨_, _, choose_inflating (Inflater.read_of_lt few)⟩

/-- A skip inside the text moves on. -/
theorem At.skip (h : At text position reader) (count : Nat)
    (fits : position + count ≤ text.length) :
    ∃ moved, Reader.skip count reader = (.ok (), moved) ∧ At text (position + count) moved := by
  cases h with
  | @plain buffer bounds slice cursor =>
    subst cursor slice
    have within : buffer.position + count ≤ buffer.length := by rwa [bounds.length_slice] at fits
    exact ⟨_, choose_plain_ok (Buffer.skip_of_le within), .plain bounds rfl rfl fits⟩
  | inflating =>
    have enough : count ≤ text.toArray.size - position := by rw [List.size_toArray]; omega
    exact ⟨_, choose_inflating (Inflater.skip_of_le enough), .inflating fits⟩

/-- A skip past the end of the text fails. -/
theorem At.skip_error (h : At text position reader) {count : Nat}
    (short : text.length < position + count) :
    ∃ fault moved, Reader.skip count reader = (.error fault, moved) := by
  cases h with
  | @plain buffer bounds slice cursor =>
    subst cursor slice
    rw [bounds.length_slice] at short
    exact ⟨_, _, choose_plain_error (Buffer.skip_of_lt short)⟩
  | inflating inside =>
    have few : text.toArray.size - position < count := by rw [List.size_toArray]; omega
    exact ⟨_, _, choose_inflating (Inflater.skip_of_lt few rfl)⟩

/-- Where it moves on, an inflater seeks by skipping. -/
theorem seek_inflating_of_le {inflater : Inflater} {target : Nat}
    (onward : inflater.position ≤ target) :
    Reader.seek target (.inflating inflater) =
      Reader.skip (target - inflater.position) (.inflating inflater) :=
  choose_inflating (Inflater.seek_of_le onward)

/-- Where it goes back, an inflater starts again. -/
theorem seek_inflating_of_lt {inflater : Inflater} {target : Nat}
    (back : target < inflater.position) :
    Reader.seek target (.inflating inflater) =
      Reader.skip target (.inflating { inflater with position := 0, taken := 0 }) :=
  choose_inflating (Inflater.seek_of_lt back)

/-- A seek inside the text goes where it is told to. -/
theorem At.seek (h : At text position reader) (target : Nat) (fits : target ≤ text.length) :
    ∃ moved, Reader.seek target reader = (.ok (), moved) ∧ At text target moved := by
  cases h with
  | @plain buffer bounds slice cursor =>
    subst cursor slice
    have within : target ≤ buffer.length := by rwa [bounds.length_slice] at fits
    exact ⟨_, choose_plain_ok (Buffer.seek_of_le within), .plain bounds rfl rfl fits⟩
  | inflating inside =>
    by_cases back : target < position
    · rw [seek_inflating_of_lt back]
      obtain ⟨moved, run, there⟩ :=
        (At.inflating (Nat.zero_le text.length)).skip target (by omega)
      exact ⟨moved, run, by rwa [Nat.zero_add] at there⟩
    · have onward : position ≤ target := Nat.le_of_not_lt back
      rw [seek_inflating_of_le onward]
      obtain ⟨moved, run, there⟩ := (At.inflating inside).skip (target - position) (by omega)
      exact ⟨moved, run, by rwa [Nat.add_sub_cancel' onward] at there⟩

/-- A seek past the end of the text fails. -/
theorem At.seek_error (h : At text position reader) {target : Nat} (short : text.length < target) :
    ∃ fault moved, Reader.seek target reader = (.error fault, moved) := by
  cases h with
  | @plain buffer bounds slice cursor =>
    subst cursor slice
    rw [bounds.length_slice] at short
    exact ⟨_, _, choose_plain_error (Buffer.seek_of_lt short)⟩
  | inflating inside =>
    have onward : position ≤ target := by omega
    rw [seek_inflating_of_le onward]
    exact (At.inflating inside).skip_error (by show _ < position + (target - position); omega)

/-! ## Actions that see the text only -/

/-- Two outcomes of an action: the same value with both readers at one position, or two failures. -/
inductive Agree {α : Type} (text : Bytes) :
    Except Fault α × Reader → Except Fault α × Reader → Prop
  | ok {position : Nat} {reader other : Reader} (value : α) (left : At text position reader)
      (right : At text position other) : Agree text (.ok value, reader) (.ok value, other)
  | error {reader other : Reader} (fault wrong : Fault) :
      Agree text (.error fault, reader) (.error wrong, other)

/-- The action agrees on any two readers at the same position of the same text. -/
def Uniform {α : Type} (action : Action α) : Prop :=
  ∀ ⦃text position reader other⦄, At text position reader → At text position other →
    Agree text (action reader) (action other)

theorem uniform_pure {α : Type} (value : α) : Uniform (pure value) :=
  fun _ _ _ _ left right => .ok value left right

theorem uniform_throw {α : Type} (fault : Fault) : Uniform (throw fault : Action α) :=
  fun _ _ _ _ _ _ => .error fault fault

theorem uniform_liftM {α : Type} (result : Except Fault α) :
    Uniform (liftM result : Action α) := by
  intro text position reader other left right
  rw [liftM_apply, liftM_apply]
  cases result with
  | ok value => exact .ok value left right
  | error fault => exact .error fault fault

theorem Uniform.bind {α β : Type} {action : Action α} {next : α → Action β}
    (first : Uniform action) (second : ∀ value, Uniform (next value)) :
    Uniform (action >>= next) := by
  intro text position reader other left right
  rw [bind_apply, bind_apply]
  have agree := first left right
  generalize action reader = run at agree ⊢
  generalize action other = run' at agree ⊢
  cases agree with
  | ok value left right => exact second value left right
  | error fault wrong => exact .error fault wrong

theorem uniform_read (count : Nat) : Uniform (read count) := by
  intro text position reader other left right
  by_cases fits : position + count ≤ text.length
  · obtain ⟨moved, run, there⟩ := left.read count fits
    obtain ⟨moved', run', there'⟩ := right.read count fits
    rw [run, run']
    exact .ok _ there there'
  · obtain ⟨fault, moved, run⟩ := left.read_error (Nat.lt_of_not_le fits)
    obtain ⟨wrong, moved', run'⟩ := right.read_error (Nat.lt_of_not_le fits)
    rw [run, run']
    exact .error fault wrong

theorem uniform_skip (count : Nat) : Uniform (skip count) := by
  intro text position reader other left right
  by_cases fits : position + count ≤ text.length
  · obtain ⟨moved, run, there⟩ := left.skip count fits
    obtain ⟨moved', run', there'⟩ := right.skip count fits
    rw [run, run']
    exact .ok _ there there'
  · obtain ⟨fault, moved, run⟩ := left.skip_error (Nat.lt_of_not_le fits)
    obtain ⟨wrong, moved', run'⟩ := right.skip_error (Nat.lt_of_not_le fits)
    rw [run, run']
    exact .error fault wrong

theorem uniform_seek (target : Nat) : Uniform (seek target) := by
  intro text position reader other left right
  by_cases fits : target ≤ text.length
  · obtain ⟨moved, run, there⟩ := left.seek target fits
    obtain ⟨moved', run', there'⟩ := right.seek target fits
    rw [run, run']
    exact .ok _ there there'
  · obtain ⟨fault, moved, run⟩ := left.seek_error (Nat.lt_of_not_le fits)
    obtain ⟨wrong, moved', run'⟩ := right.seek_error (Nat.lt_of_not_le fits)
    rw [run, run']
    exact .error fault wrong

theorem uniform_int32 : Uniform int32 := (uniform_read 4).bind fun _ => uniform_pure _

theorem uniform_getLength : Uniform getLength := by
  intro text position reader other left right
  rw [getLength, getLength, left.length_eq, right.length_eq]
  exact .ok _ left right

theorem uniform_getLeft : Uniform getLeft := by
  intro text position reader other left right
  rw [getLeft, getLeft, left.length_eq, right.length_eq, left.position_eq, right.position_eq]
  exact .ok _ left right

theorem uniform_isEmpty : Uniform isEmpty := by
  intro text position reader other left right
  rw [isEmpty, isEmpty, left.length_eq, right.length_eq, left.position_eq, right.position_eq]
  exact .ok _ left right

theorem uniform_rest : Uniform rest := uniform_getLeft.bind fun _ => uniform_read _

/-- What an action returns, if anything, depends on the text alone. -/
theorem Uniform.toOption_eq {α : Type} {action : Action α} (uniform : Uniform action)
    {other : Reader} (left : At text position reader) (right : At text position other) :
    (action reader).1.toOption = (action other).1.toOption := by
  have agree := uniform left right
  generalize action reader = run at agree ⊢
  generalize action other = run' at agree ⊢
  cases agree <;> rfl

/-! ## Reading to the end -/

/-- All that is left of the text is read. -/
theorem At.rest (h : At text position reader) :
    ∃ moved, Reader.rest reader = (.ok (text.drop position), moved) ∧
      At text text.length moved := by
  have inside := h.inside
  obtain ⟨moved, run, there⟩ := h.read (text.length - position) (by omega)
  rw [Nat.add_sub_cancel' inside] at there
  refine ⟨moved, ?_, there⟩
  have left : getLeft reader = (.ok (text.length - position), reader) := by
    rw [getLeft, h.length_eq, h.position_eq]
    rfl
  rw [Reader.rest, bind_apply, left]
  simp only [run]
  rw [List.take_of_length_le (by simp)]

/-- A damaged reader cannot be read to its end, and stays as it is. -/
theorem Damaged.rest (h : Damaged reader) :
    ∃ fault, Reader.rest reader = (.error fault, reader) := by
  obtain ⟨fault, length⟩ := h.length_eq
  refine ⟨fault, ?_⟩
  rw [Reader.rest, bind_apply, getLeft, length]
  rfl

/-- A reader at the start of a text is where a reset would put it. -/
theorem At.reset (h : At text 0 reader) : Reader.reset reader = (.ok (), reader) := by
  cases h with
  | @plain buffer bounds slice cursor =>
    have same : { buffer with position := 0 } = buffer := by rw [← cursor]
    have run := Buffer.seek_of_le (Nat.zero_le buffer.length)
    rw [same] at run
    rw [Reader.reset, Reader.seek]
    exact choose_plain_ok run
  | inflating =>
    rw [Reader.reset, seek_inflating_of_le (Nat.le_refl 0)]
    exact choose_inflating (Inflater.skip_of_le (Nat.zero_le _))

end Reader

end RevisionLog
