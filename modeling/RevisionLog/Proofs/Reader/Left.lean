import RevisionLog.Client
import RevisionLog.Proofs.Reader.Shown

/-!
# What is left of a reader

Whatever is asked of a reader, the text that it shows stays the same, but a read past the end of a
compressed text uses up the decoder and does not move the reported position. A reader `Reader.Has`
a text if it is in step with it or has run ahead like that. Every request keeps it
(`Reader.keeps_perform`), and so does every client (`Client.has`), by induction on the client.
-/

namespace RevisionLog

namespace Reader

/-- The reader shows the text, but its decoder may have run ahead to the end. -/
inductive Has (text : Bytes) : Reader → Prop
  | plain {buffer : Buffer} (fits : buffer.Fits) (slice : buffer.slice = text)
      (inside : buffer.position ≤ text.length) : Has text (.plain buffer)
  | inflating {position taken : Nat} (inside : position ≤ text.length)
      (decoder : taken = position ∨ taken = text.length) :
      Has text (.inflating ⟨⟨text.toArray, .complete⟩, position, taken⟩)

variable {text : Bytes} {position : Nat} {reader : Reader}

theorem At.has (h : At text position reader) : Has text reader := by
  cases h with
  | plain fits slice cursor inside =>
    subst cursor
    exact .plain fits slice inside
  | inflating inside => exact .inflating inside (.inl rfl)

theorem Has.length_eq (h : Has text reader) : reader.length = .ok text.length := by
  cases h with
  | plain fits slice inside => exact (At.plain fits slice rfl inside).length_eq
  | inflating => rfl

/-! ## Actions that keep the text -/

/-- Whatever becomes of the action, a reader of the text is left. -/
def Keeps {α : Type} (action : Action α) : Prop :=
  ∀ ⦃text reader⦄, Has text reader → Has text (action reader).2

theorem keeps_pure {α : Type} (value : α) : Keeps (pure value) := fun _ _ h => h

theorem keeps_throw {α : Type} (fault : Fault) : Keeps (throw fault : Action α) := fun _ _ h => h

theorem keeps_liftM {α : Type} (result : Except Fault α) : Keeps (liftM result : Action α) := by
  intro text reader h
  rw [liftM_apply]
  exact h

theorem Keeps.bind {α β : Type} {action : Action α} {next : α → Action β} (first : Keeps action)
    (second : ∀ value, Keeps (next value)) : Keeps (action >>= next) := by
  intro text reader h
  have left := first h
  rw [bind_apply]
  generalize action reader = run at left ⊢
  obtain ⟨result, moved⟩ := run
  cases result with
  | error fault => exact left
  | ok value => exact second value left

/-- An action that only looks at the reader leaves it as it is. -/
theorem keeps_look {α : Type} (look : Reader → Except Fault α) :
    Keeps fun reader => (look reader, reader) := fun _ _ h => h

/-- A cursor that is moved inside its window still shows the text. -/
theorem has_moved {buffer : Buffer} {target : Nat} (fits : buffer.Fits)
    (slice : buffer.slice = text) (within : target ≤ buffer.length) :
    Has text (.plain { buffer with position := target }) := by
  have length := fits.length_slice
  rw [slice] at length
  exact .plain fits slice (by rwa [length])

/-- A decoder that has still some bytes to deliver moves on with the position. -/
theorem has_onward {taken count : Nat} (inside : position ≤ text.length)
    (decoder : taken = position ∨ taken = text.length) (enough : count ≤ text.length - taken) :
    Has text (.inflating ⟨⟨text.toArray, .complete⟩, position + count, taken + count⟩) :=
  .inflating (by omega) (by omega)

theorem keeps_read (count : Nat) : Keeps (read count) := by
  intro text reader h
  cases h with
  | @plain buffer fits slice inside =>
    by_cases enough : count ≤ buffer.left
    · have length := fits.length_slice
      rw [slice] at length
      rw [read, choose_plain_ok (Buffer.read_of_le enough)]
      rw [Buffer.left] at enough
      exact has_moved fits slice (by omega)
    · rw [read, choose_plain_error (Buffer.read_of_lt (Nat.lt_of_not_le enough))]
      exact .plain fits slice inside
  | @inflating position taken inside decoder =>
    by_cases enough : count ≤ text.toArray.size - taken
    · rw [read, choose_inflating (Inflater.read_of_le enough)]
      rw [List.size_toArray] at enough
      exact has_onward inside decoder enough
    · rw [read, choose_inflating (Inflater.read_of_lt (Nat.lt_of_not_le enough))]
      exact .inflating inside (.inr List.size_toArray)

theorem keeps_skip (count : Nat) : Keeps (skip count) := by
  intro text reader h
  cases h with
  | @plain buffer fits slice inside =>
    by_cases enough : buffer.position + count ≤ buffer.length
    · rw [skip, choose_plain_ok (Buffer.skip_of_le enough)]
      exact has_moved fits slice enough
    · rw [skip, choose_plain_error (Buffer.skip_of_lt (Nat.lt_of_not_le enough))]
      exact .plain fits slice inside
  | @inflating position taken inside decoder =>
    by_cases enough : count ≤ text.toArray.size - taken
    · rw [skip, choose_inflating (Inflater.skip_of_le enough)]
      rw [List.size_toArray] at enough
      exact has_onward inside decoder enough
    · rw [skip, choose_inflating (Inflater.skip_of_lt (Nat.lt_of_not_le enough) rfl)]
      refine .inflating ?_ (.inr List.size_toArray)
      show position + (text.toArray.size - taken) ≤ text.length
      rw [List.size_toArray]
      omega

theorem keeps_seek (target : Nat) : Keeps (seek target) := by
  intro text reader h
  cases h with
  | @plain buffer fits slice inside =>
    by_cases within : target ≤ buffer.length
    · rw [seek, choose_plain_ok (Buffer.seek_of_le within)]
      exact has_moved fits slice within
    · rw [seek, choose_plain_error (Buffer.seek_of_lt (Nat.lt_of_not_le within))]
      exact .plain fits slice inside
  | @inflating position taken inside decoder =>
    by_cases back : target < position
    · rw [seek_inflating_of_lt back]
      exact keeps_skip target (.inflating (Nat.zero_le _) (.inl rfl))
    · rw [seek_inflating_of_le (Nat.le_of_not_lt back)]
      exact keeps_skip _ (.inflating inside decoder)

theorem keeps_int32 : Keeps int32 := (keeps_read 4).bind fun _ => keeps_pure _

theorem keeps_rest : Keeps rest := (keeps_look _).bind fun _ => keeps_read _

end Reader

open Reader (Keeps Has At)

theorem Fragment.keeps_read : Keeps Fragment.read := by
  refine Reader.keeps_int32.bind fun start => Reader.keeps_int32.bind fun stop =>
    Reader.keeps_int32.bind fun length => ?_
  split
  · exact Reader.keeps_throw _
  · refine (Reader.keeps_look _).bind fun left => ?_
    split
    · exact Reader.keeps_throw _
    · exact (Reader.keeps_read _).bind fun data => Reader.keeps_pure _

namespace Patch

/-- By induction on the run; each fragment that is decoded leaves a reader of the text. -/
theorem keeps_read : Keeps Patch.read := by
  intro text reader h
  have looked : ∀ {answer : Except Fault Bool} {moved : Reader},
      Reader.isEmpty reader = (answer, moved) → Has text moved := by
    intro answer moved run
    obtain ⟨-, rfl⟩ := Prod.mk.inj run
    exact h
  fun_induction Patch.read reader with
  | case1 reader fault moved empty => exact looked empty
  | case2 reader moved empty => exact looked empty
  | case3 reader moved empty fault after first =>
    have left := Fragment.keeps_read (looked empty)
    rwa [first] at left
  | case4 reader moved empty fragment after first fragments last rest ih =>
    have left := Fragment.keeps_read (looked empty)
    rw [first] at left
    have behind := ih left fun run => by
      obtain ⟨-, rfl⟩ := Prod.mk.inj run
      exact left
    rwa [rest] at behind

theorem keeps_span (start stop : Nat) : Keeps (span start stop) := by
  unfold span
  split
  · exact Reader.keeps_pure _
  · exact (Reader.keeps_seek _).bind fun _ => Reader.keeps_read _

theorem keeps_splice (baseLength done : Nat) (patch : Patch) :
    Keeps (splice baseLength done patch) := by
  induction patch generalizing done with
  | nil => exact keeps_span done baseLength
  | cons fragment patch ih =>
    exact (keeps_span _ _).bind fun before => (ih _).bind fun behind => Reader.keeps_pure _

theorem keeps_apply (declared : Int32) (patch : Patch) : Keeps (Patch.apply declared patch) := by
  refine (Reader.keeps_look _).bind fun baseLength => (Reader.keeps_liftM _).bind fun computed => ?_
  split
  · exact Reader.keeps_throw _
  · exact keeps_splice _ _ _

end Patch

/-! ## Clients -/

/-- A request is answered without harm to the text. -/
theorem Reader.keeps_perform (request : Request) : Keeps (Reader.perform request) := by
  cases request with
  | length => exact (keeps_look _).bind fun _ => keeps_pure _
  | position => exact keeps_look _
  | seek target => exact (keeps_seek target).bind fun _ => keeps_pure _
  | skip count => exact (keeps_skip count).bind fun _ => keeps_pure _
  | reset => exact (keeps_seek 0).bind fun _ => keeps_pure _
  | isEmpty => exact (keeps_look _).bind fun _ => keeps_pure _
  | read count => exact (keeps_read count).bind fun _ => keeps_pure _
  | uint8 => exact ((keeps_read 1).bind fun _ => keeps_pure _).bind fun _ => keeps_pure _
  | int32 => exact keeps_int32.bind fun _ => keeps_pure _
  | int64 => exact ((keeps_read 8).bind fun _ => keeps_pure _).bind fun _ => keeps_pure _
  | rest => exact keeps_rest.bind fun _ => keeps_pure _
  | fragment => exact Fragment.keeps_read.bind fun _ => keeps_pure _
  | patch => exact Patch.keeps_read.bind fun _ => keeps_pure _
  | apply declared patch => exact (Patch.keeps_apply declared patch).bind fun _ => keeps_pure _

/-- **A client leaves a reader of the text that it was given.** -/
theorem Client.has {α : Type} (client : Client α) {text : Bytes} {reader : Reader}
    (h : Has text reader) : Has text (client.run reader).2 := by
  induction client generalizing reader with
  | done result => exact h
  | ask request next ih => exact ih _ (Reader.keeps_perform request h)

end RevisionLog
