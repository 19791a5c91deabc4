import RevisionLog.Client
import RevisionLog.Proofs.Reader.Shown

/-!
# Readers that are alike

Buffers over different bytes may show the same window with the cursor at the same place. Whatever is
done to such buffers has the same result, a fault included, and leaves them alike
(`Reader.Respects`). This holds of the primitive actions and is passed on by `bind`, so it holds of
every request (`Reader.respects_perform`), and no client can tell readers that are alike from each
other (`Client.run_alike`).
-/

namespace RevisionLog

namespace Buffer

/-- The buffers show the same bytes and have their cursors at the same place. -/
structure Alike (buffer other : Buffer) : Prop where
  slice : buffer.slice = other.slice
  length : buffer.length = other.length
  position : buffer.position = other.position

variable {buffer other : Buffer}

theorem Alike.left (alike : buffer.Alike other) : buffer.left = other.left := by
  rw [Buffer.left, Buffer.left, alike.length, alike.position]

theorem Alike.span {offset count : Nat} (alike : buffer.Alike other)
    (inside : count ≤ buffer.length - offset) :
    buffer.span offset count = other.span offset count := by
  obtain rfl | some := Nat.eq_zero_or_pos count
  · rw [span_eq, span_eq, List.take_zero, List.take_zero]
  · have length := alike.length
    rw [span_eq_slice (by omega), span_eq_slice (by omega), alike.slice]

/-- Moving the cursors to one place leaves the buffers alike. -/
theorem Alike.move (alike : buffer.Alike other) {target target' : Nat} (same : target = target') :
    Alike { buffer with position := target } { other with position := target' } :=
  ⟨alike.slice, alike.length, same⟩

theorem Alike.first? (alike : buffer.Alike other) : buffer.first? = other.first? := by
  have first : ∀ buffer : Buffer, buffer.first? = buffer.slice.head? := by
    intro buffer
    rw [Buffer.first?, slice_eq]
    split
    · rename_i some
      rw [List.head?_take, if_neg (by omega), List.head?_drop, Array.getElem?_toList]
    · rename_i none
      rw [Nat.eq_zero_of_not_pos none]
      rfl
  rw [first, first, alike.slice]

/-- Windows of one length are alike if they show the same bytes. -/
theorem alike_of_window {inner inner' : Buffer} {offset offset' count : Nat}
    (window : buffer.window offset count = .ok inner)
    (window' : other.window offset' count = .ok inner') (same : inner.slice = inner'.slice) :
    inner.Alike inner' := by
  obtain ⟨-, rfl⟩ := window_eq_ok window
  obtain ⟨-, rfl⟩ := window_eq_ok window'
  exact ⟨same, rfl, rfl⟩

/-- The same part of both windows can be had, or of neither. -/
theorem Alike.window (alike : buffer.Alike other) (offset count : Nat) :
    (∃ inner inner', buffer.window offset count = .ok inner ∧
      other.window offset count = .ok inner' ∧ inner.Alike inner') ∨
    ∃ fault, buffer.window offset count = .error fault ∧ other.window offset count = .error fault := by
  by_cases inside : offset + count ≤ buffer.length
  · have inner : buffer.window offset count = .ok ⟨buffer.bytes, buffer.start + offset, count, 0⟩ :=
      if_pos inside
    have inner' : other.window offset count = .ok ⟨other.bytes, other.start + offset, count, 0⟩ :=
      if_pos (by rwa [← alike.length])
    refine .inl ⟨_, _, inner, inner', alike_of_window inner inner' ?_⟩
    rw [slice_window inner, slice_window inner', alike.slice]
  · refine .inr ⟨.windowPastEnd offset count buffer.length, if_neg inside, ?_⟩
    rw [alike.length] at inside ⊢
    exact if_neg inside

end Buffer

namespace Reader

/-- The readers show the same bytes, or decode the same stream, and are at the same place. -/
inductive Alike : Reader → Reader → Prop
  | plain {buffer other : Buffer} (alike : buffer.Alike other) :
      Alike (.plain buffer) (.plain other)
  | inflating (inflater : Inflater) : Alike (.inflating inflater) (.inflating inflater)

variable {reader other : Reader}

theorem alike_refl (reader : Reader) : Alike reader reader := by
  cases reader with
  | plain buffer => exact .plain ⟨rfl, rfl, rfl⟩
  | inflating inflater => exact .inflating inflater

theorem Alike.length (alike : Alike reader other) : reader.length = other.length := by
  cases alike with
  | plain alike => exact congrArg Except.ok alike.length
  | inflating inflater => exact rfl

theorem Alike.position (alike : Alike reader other) : reader.position = other.position := by
  cases alike with
  | plain alike => exact alike.position
  | inflating inflater => exact rfl

/-! ## Actions that do the same -/

/-- The action has the same result on readers that are alike, and leaves them alike. -/
def Respects {α : Type} (action : Action α) : Prop :=
  ∀ ⦃reader other⦄, Alike reader other →
    (action reader).1 = (action other).1 ∧ Alike (action reader).2 (action other).2

theorem Respects.run {α : Type} {action : Action α} {result : Except Fault α} {moved : Reader}
    (respects : Respects action) (alike : Alike reader other)
    (run : action reader = (result, moved)) :
    ∃ moved', action other = (result, moved') ∧ Alike moved moved' := by
  obtain ⟨same, left⟩ := respects alike
  rw [run] at same left
  exact ⟨(action other).2, Prod.ext same.symm rfl, left⟩

theorem respects_pure {α : Type} (value : α) : Respects (pure value) :=
  fun _ _ alike => ⟨rfl, alike⟩

theorem respects_throw {α : Type} (fault : Fault) : Respects (throw fault : Action α) :=
  fun _ _ alike => ⟨rfl, alike⟩

theorem respects_liftM {α : Type} (result : Except Fault α) :
    Respects (liftM result : Action α) := by
  intro reader other alike
  rw [liftM_apply, liftM_apply]
  exact ⟨rfl, alike⟩

theorem Respects.bind {α β : Type} {action : Action α} {next : α → Action β}
    (first : Respects action) (second : ∀ value, Respects (next value)) :
    Respects (action >>= next) := by
  intro reader other alike
  obtain ⟨same, left⟩ := first alike
  rw [bind_apply, bind_apply]
  generalize action reader = run at same left ⊢
  generalize action other = run' at same left ⊢
  obtain ⟨result, moved⟩ := run
  obtain ⟨result', moved'⟩ := run'
  obtain rfl : result = result' := same
  cases result with
  | error fault => exact ⟨rfl, left⟩
  | ok value => exact second value left

/-- An action that only looks at what readers have in common. -/
theorem respects_look {α : Type} {look : Reader → Except Fault α}
    (common : ∀ ⦃reader other⦄, Alike reader other → look reader = look other) :
    Respects fun reader => (look reader, reader) :=
  fun _ _ alike => ⟨common alike, alike⟩

/-- An action that is chosen by the kind of the reader has only buffers to deal with. -/
theorem respects_choose {α : Type} {onBuffer : Buffer.Action α} {onInflater : Inflater.Action α}
    (same : ∀ ⦃buffer other : Buffer⦄, buffer.Alike other →
      (∃ value moved moved', onBuffer buffer = .ok (value, moved) ∧
        onBuffer other = .ok (value, moved') ∧ moved.Alike moved') ∨
      ∃ fault, onBuffer buffer = .error fault ∧ onBuffer other = .error fault) :
    Respects (choose onBuffer onInflater) := by
  intro reader other alike
  cases alike with
  | inflating inflater => exact ⟨rfl, .inflating _⟩
  | plain alike =>
    obtain ⟨value, moved, moved', run, run', left⟩ | ⟨fault, run, run'⟩ := same alike
    · rw [choose_plain_ok run, choose_plain_ok run']
      exact ⟨rfl, .plain left⟩
    · rw [choose_plain_error run, choose_plain_error run']
      exact ⟨rfl, .plain alike⟩

theorem respects_read (count : Nat) : Respects (read count) := by
  refine respects_choose fun buffer other alike => ?_
  by_cases enough : count ≤ buffer.left
  · refine .inl ⟨_, _, _, Buffer.read_of_le enough, ?_, alike.move rfl⟩
    rw [Buffer.read_of_le (by rwa [← alike.left]), ← alike.position, alike.span enough]
  · refine .inr ⟨_, Buffer.read_of_lt (Nat.lt_of_not_le enough), ?_⟩
    rw [alike.left] at enough ⊢
    rw [Buffer.read_of_lt (Nat.lt_of_not_le enough), alike.position]

theorem respects_skip (count : Nat) : Respects (skip count) := by
  refine respects_choose fun buffer other alike => ?_
  by_cases enough : buffer.position + count ≤ buffer.length
  · refine .inl ⟨_, _, _, Buffer.skip_of_le enough, ?_, alike.move rfl⟩
    rw [alike.position, alike.length] at enough
    rw [Buffer.skip_of_le enough, alike.position]
  · refine .inr ⟨_, Buffer.skip_of_lt (Nat.lt_of_not_le enough), ?_⟩
    rw [alike.position, alike.length] at enough
    rw [Buffer.skip_of_lt (Nat.lt_of_not_le enough)]

theorem respects_seek (target : Nat) : Respects (seek target) := by
  refine respects_choose fun buffer other alike => ?_
  by_cases within : target ≤ buffer.length
  · refine .inl ⟨_, _, _, Buffer.seek_of_le within, ?_, alike.move rfl⟩
    rw [Buffer.seek_of_le (by rwa [← alike.length])]
  · refine .inr ⟨_, Buffer.seek_of_lt (Nat.lt_of_not_le within), ?_⟩
    rw [alike.length] at within ⊢
    rw [Buffer.seek_of_lt (Nat.lt_of_not_le within)]

theorem respects_getLength : Respects getLength :=
  respects_look fun _ _ alike => alike.length

theorem respects_getLeft : Respects getLeft :=
  respects_look fun _ _ alike => by rw [alike.length, alike.position]

theorem respects_isEmpty : Respects isEmpty :=
  respects_look fun _ _ alike => by rw [alike.length, alike.position]

theorem respects_int32 : Respects int32 := (respects_read 4).bind fun _ => respects_pure _

theorem respects_rest : Respects rest := respects_getLeft.bind fun _ => respects_read _

end Reader

open Reader (Alike Respects)

theorem Fragment.respects_read : Respects Fragment.read := by
  refine Reader.respects_int32.bind fun start => Reader.respects_int32.bind fun stop =>
    Reader.respects_int32.bind fun length => ?_
  split
  · exact Reader.respects_throw _
  · refine Reader.respects_getLeft.bind fun left => ?_
    split
    · exact Reader.respects_throw _
    · exact (Reader.respects_read _).bind fun data => Reader.respects_pure _

namespace Patch

/-- By induction on the run; each fragment that is decoded leaves readers that are alike. -/
theorem respects_read : Respects Patch.read := by
  intro reader other alike
  fun_induction Patch.read reader generalizing other with
  | case1 reader fault moved empty =>
    obtain ⟨moved', run, left⟩ := Reader.respects_isEmpty.run alike empty
    rw [Patch.read, run]
    exact ⟨rfl, left⟩
  | case2 reader moved empty =>
    obtain ⟨moved', run, left⟩ := Reader.respects_isEmpty.run alike empty
    rw [Patch.read, run]
    exact ⟨rfl, left⟩
  | case3 reader moved empty fault after first =>
    obtain ⟨moved', run, left⟩ := Reader.respects_isEmpty.run alike empty
    obtain ⟨after', run', left⟩ := Fragment.respects_read.run left first
    rw [Patch.read, run]
    dsimp only
    rw [run']
    exact ⟨rfl, left⟩
  | case4 reader moved empty fragment after first fragments last rest ih =>
    obtain ⟨moved', run, left⟩ := Reader.respects_isEmpty.run alike empty
    obtain ⟨after', run', left⟩ := Fragment.respects_read.run left first
    obtain ⟨same, left⟩ := ih left
    rw [Patch.read, run]
    dsimp only
    rw [run']
    dsimp only
    rw [rest] at same left
    exact ⟨congrArg _ same, left⟩

theorem respects_span (start stop : Nat) : Respects (span start stop) := by
  unfold span
  split
  · exact Reader.respects_pure _
  · exact (Reader.respects_seek _).bind fun _ => Reader.respects_read _

theorem respects_splice (baseLength done : Nat) (patch : Patch) :
    Respects (splice baseLength done patch) := by
  induction patch generalizing done with
  | nil => exact respects_span done baseLength
  | cons fragment patch ih =>
    exact (respects_span _ _).bind fun before => (ih _).bind fun behind => Reader.respects_pure _

theorem respects_apply (declared : Int32) (patch : Patch) :
    Respects (Patch.apply declared patch) := by
  refine Reader.respects_getLength.bind fun baseLength =>
    (Reader.respects_liftM _).bind fun computed => ?_
  split
  · exact Reader.respects_throw _
  · exact respects_splice _ _ _

end Patch

/-! ## Clients -/

/-- A request has the same answer. -/
theorem Reader.respects_perform (request : Request) : Respects (Reader.perform request) := by
  cases request with
  | length => exact respects_getLength.bind fun _ => respects_pure _
  | position => exact respects_look fun _ _ alike => by rw [alike.position]
  | seek target => exact (respects_seek target).bind fun _ => respects_pure _
  | skip count => exact (respects_skip count).bind fun _ => respects_pure _
  | reset => exact (respects_seek 0).bind fun _ => respects_pure _
  | isEmpty => exact respects_isEmpty.bind fun _ => respects_pure _
  | read count => exact (respects_read count).bind fun _ => respects_pure _
  | uint8 => exact ((respects_read 1).bind fun _ => respects_pure _).bind fun _ => respects_pure _
  | int32 => exact respects_int32.bind fun _ => respects_pure _
  | int64 => exact ((respects_read 8).bind fun _ => respects_pure _).bind fun _ => respects_pure _
  | rest => exact respects_rest.bind fun _ => respects_pure _
  | fragment => exact Fragment.respects_read.bind fun _ => respects_pure _
  | patch => exact Patch.respects_read.bind fun _ => respects_pure _
  | apply declared patch =>
    exact (Patch.respects_apply declared patch).bind fun _ => respects_pure _

theorem Client.run_ask {α : Type} (request : Request) (next : Answer → Client α) (reader : Reader) :
    (Client.ask request next).run reader =
      (next (reader.answer request).1).run (reader.answer request).2 := rfl

/-- **No client can tell readers that are alike from each other.** -/
theorem Client.run_alike {α : Type} (client : Client α) {reader other : Reader}
    (alike : Alike reader other) : (client.run reader).1 = (client.run other).1 ∧
      Alike (client.run reader).2 (client.run other).2 := by
  induction client generalizing reader other with
  | done result => exact ⟨rfl, alike⟩
  | ask request next ih =>
    obtain ⟨same, left⟩ := Reader.respects_perform request alike
    rw [run_ask, run_ask, Reader.answer, Reader.answer, same]
    exact ih _ left

end RevisionLog
