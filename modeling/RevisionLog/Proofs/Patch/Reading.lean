import RevisionLog.Patch
import RevisionLog.Proofs.Bytes
import RevisionLog.Proofs.Reader.Shown

/-!
# Decoding patches

What is decoded from a reader depends on the text it shows and on nothing else
(`Patch.uniform_read`), so a patch is a function of the bytes that store it: `Patch.decode?`. From
a damaged reader none is decoded. A patch that was written is decoded again
(`Patch.decode?_write`), one fragment after the other, if the lengths of its data can be stored. In
a patch that was decoded they can (`Patch.storable_of_decode?`).
-/

namespace RevisionLog

open Reader (Uniform At Damaged)

theorem Fragment.uniform_read : Uniform Fragment.read := by
  refine Reader.uniform_int32.bind fun start => Reader.uniform_int32.bind fun stop =>
    Reader.uniform_int32.bind fun length => ?_
  split
  · exact Reader.uniform_throw _
  · refine Reader.uniform_getLeft.bind fun left => ?_
    split
    · exact Reader.uniform_throw _
    · exact (Reader.uniform_read _).bind fun data => Reader.uniform_pure _

namespace Patch

/-- By induction on the run on one of the readers; the other one follows it fragment by fragment. -/
theorem uniform_read : Uniform Patch.read := by
  intro text position reader other left right
  fun_induction Patch.read reader generalizing position other with
  | case1 reader fault moved empty =>
    rw [Reader.isEmpty, left.length_eq] at empty
    cases (Prod.mk.inj empty).1
  | case2 reader moved empty =>
    have agree := Reader.uniform_isEmpty left right
    rw [empty] at agree
    rw [Patch.read]
    generalize Reader.isEmpty other = run at agree ⊢
    cases agree with
    | ok _ left right => exact .ok [] left right
  | case3 reader moved empty fault after first =>
    have agree := Reader.uniform_isEmpty left right
    rw [empty] at agree
    rw [Patch.read]
    generalize Reader.isEmpty other = run at agree ⊢
    cases agree with
    | ok _ left right =>
      have agree := Fragment.uniform_read left right
      rw [first] at agree
      dsimp only
      generalize Fragment.read _ = run at agree ⊢
      cases agree with
      | error _ wrong => exact .error fault wrong
  | case4 reader moved empty fragment after first fragments last rest ih =>
    have agree := Reader.uniform_isEmpty left right
    rw [empty] at agree
    rw [Patch.read]
    generalize Reader.isEmpty other = run at agree ⊢
    cases agree with
    | ok _ left right =>
      have agree := Fragment.uniform_read left right
      rw [first] at agree
      dsimp only
      generalize Fragment.read _ = run at agree ⊢
      cases agree with
      | ok _ left right =>
        have agree := ih left right
        rw [rest] at agree
        dsimp only
        generalize Patch.read _ = run at agree ⊢
        cases agree with
        | ok patch left right => exact .ok _ left right
        | error fault wrong => exact .error fault wrong

/-- The patch that is stored in some bytes. -/
def decode? (bytes : Bytes) : Option Patch := (Patch.read (.ofBytes bytes)).1.toOption

theorem toOption_read {bytes : Bytes} {reader : Reader} (h : At bytes 0 reader) :
    (Patch.read reader).1.toOption = decode? bytes :=
  uniform_read.toOption_eq h (Reader.at_ofBytes bytes)

theorem toOption_read_damaged {reader : Reader} (h : Damaged reader) :
    (Patch.read reader).1.toOption = none := by
  obtain ⟨fault, length⟩ := h.length_eq
  have empty : Reader.isEmpty reader = (.error fault, reader) := by
    rw [Reader.isEmpty, length]
    rfl
  rw [Patch.read, empty]
  rfl

end Patch

/-! ## Reading what was written -/

variable {text : Bytes} {position : Nat} {reader : Reader}

theorem Reader.At.int32 (h : At text position reader) (fits : position + 4 ≤ text.length) :
    ∃ moved, Reader.int32 reader = (.ok (text.word position), moved) ∧
      At text (position + 4) moved := by
  obtain ⟨moved, run, there⟩ := h.read 4 fits
  refine ⟨moved, ?_, there⟩
  rw [Reader.int32, Reader.bind_apply, run]
  rfl

namespace Fragment

/-- The data are few enough for their number to be stored. -/
def Storable (fragment : Fragment) : Prop := fragment.data.length < 2 ^ 31

instance (fragment : Fragment) : Decidable fragment.Storable :=
  inferInstanceAs (Decidable (_ < _))

@[simp] theorem length_write (fragment : Fragment) :
    fragment.write.length = 12 + fragment.data.length := by
  simp only [write, List.length_append, Bytes.length_ofInt32]

theorem Storable.toInt_length {fragment : Fragment} (small : fragment.Storable) :
    fragment.length.toInt = fragment.data.length := Int32.toInt_ofNat_of_lt small

/-- A fragment is read back, and the reader stands behind it. -/
theorem read_write {fragment : Fragment} (small : fragment.Storable) {rest : Bytes}
    (h : At text position reader) (there : text.drop position = fragment.write ++ rest) :
    ∃ moved, Fragment.read reader = (.ok fragment, moved) ∧
      At text (position + fragment.write.length) moved := by
  have room := congrArg List.length there
  rw [List.length_drop, List.length_append, length_write] at room
  have start : text.word position = fragment.start := by
    rw [← Nat.add_zero position, Bytes.word_add, there, write]
    simp
  have stop : text.word (position + 4) = fragment.stop := by
    rw [Bytes.word_add, there, write]
    simp [Bytes.word_append]
  have length : text.word (position + 4 + 4) = fragment.length := by
    rw [Nat.add_assoc, Bytes.word_add, there, write]
    simp [Bytes.word_append]
  have data : (text.drop (position + 4 + 4 + 4)).take fragment.data.length = fragment.data := by
    rw [Nat.add_assoc, Nat.add_assoc, ← List.drop_drop, there, write, List.append_assoc,
      List.drop_left' (by simp), List.take_left' rfl]
  have inside := h.inside
  obtain ⟨second, first, h⟩ := h.int32 (by omega)
  obtain ⟨third, next, h⟩ := h.int32 (by omega)
  obtain ⟨fourth, last, h⟩ := h.int32 (by omega)
  have left : Reader.getLeft fourth = (.ok (text.length - (position + 4 + 4 + 4)), fourth) := by
    rw [Reader.getLeft, h.length_eq, h.position_eq]
    rfl
  obtain ⟨moved, run, h⟩ := h.read fragment.data.length (by omega)
  rw [data] at run
  refine ⟨moved, ?_, by rwa [length_write, ← Nat.add_assoc]⟩
  have nonneg : ¬fragment.length < 0 := by
    rw [Int32.lt_iff_toInt_lt, small.toInt_length]
    exact Int.not_lt.2 (Int.natCast_nonneg _)
  have enough : ¬text.length - (position + 4 + 4 + 4) < fragment.data.length := by omega
  rw [read, Reader.bind_apply, first]
  dsimp only
  rw [Reader.bind_apply, next]
  dsimp only
  rw [Reader.bind_apply, last]
  dsimp only
  rw [length, if_neg nonneg, Reader.bind_apply, left]
  dsimp only
  rw [small.toInt_length, Int.toNat_natCast, if_neg enough, Reader.bind_apply, run, start, stop]
  rfl

end Fragment

namespace Patch

theorem isEmpty_at (h : At text position reader) :
    Reader.isEmpty reader = (.ok (decide (text.length ≤ position)), reader) := by
  rw [Reader.isEmpty, h.length_eq, h.position_eq]
  rfl

/-- By induction on the patch; the reader stands behind what has been read back. -/
theorem read_write {patch : Patch} (small : ∀ fragment ∈ patch, fragment.Storable)
    (h : At text position reader) (there : text.drop position = write patch) :
    ∃ moved, Patch.read reader = (.ok patch, moved) := by
  induction patch generalizing position reader with
  | nil =>
    have final : text.length ≤ position := List.drop_eq_nil_iff.1 there
    rw [Patch.read, isEmpty_at h, decide_eq_true final]
    exact ⟨reader, rfl⟩
  | cons fragment patch ih =>
    rw [write, List.flatMap_cons] at there
    have room := congrArg List.length there
    rw [List.length_drop, List.length_append, Fragment.length_write] at room
    have more : ¬text.length ≤ position := by omega
    obtain ⟨between, first, behind⟩ :=
      Fragment.read_write (small fragment List.mem_cons_self) h there
    obtain ⟨moved, rest⟩ := ih
      (fun other member => small other (List.mem_cons_of_mem _ member)) behind
      (by rw [← List.drop_drop, there, List.drop_left' rfl, write])
    rw [Patch.read, isEmpty_at h, decide_eq_false more]
    dsimp only
    rw [first]
    dsimp only
    rw [rest]
    exact ⟨moved, rfl⟩

/-- **A patch that was written is decoded again.** -/
theorem decode?_write {patch : Patch} (small : ∀ fragment ∈ patch, fragment.Storable) :
    decode? (write patch) = some patch := by
  obtain ⟨moved, run⟩ := read_write small (Reader.at_ofBytes (write patch)) rfl
  rw [decode?, run]
  rfl

end Patch

/-! ## What is read could be written -/

namespace Reader

/-- Whenever the action succeeds, its value is of some kind. -/
def Returns {α : Type} (kind : α → Prop) (action : Action α) : Prop :=
  ∀ ⦃reader value moved⦄, action reader = (.ok value, moved) → kind value

theorem returns_pure {α : Type} {kind : α → Prop} {value : α} (h : kind value) :
    Returns kind (pure value) := by
  intro reader _ moved run
  obtain ⟨same, -⟩ := Prod.mk.inj run
  rwa [← Except.ok.inj same]

theorem returns_throw {α : Type} (kind : α → Prop) (fault : Fault) :
    Returns kind (throw fault : Action α) := by
  intro reader value moved run
  cases (Prod.mk.inj run).1

theorem Returns.bind {α β : Type} {kind : α → Prop} {kind' : β → Prop} {action : Action α}
    {next : α → Action β} (first : Returns kind action)
    (second : ∀ value, kind value → Returns kind' (next value)) :
    Returns kind' (action >>= next) := by
  intro reader value moved run
  rw [bind_apply] at run
  split at run
  · rename_i found
    exact second _ (first found) run
  · cases (Prod.mk.inj run).1

theorem returns_any {α : Type} (action : Action α) : Returns (fun _ => True) action :=
  fun _ _ _ _ => trivial

/-- A read does not return more than it was asked for. -/
theorem returns_read (count : Nat) : Returns (fun bytes => bytes.length ≤ count) (read count) := by
  intro reader bytes moved run
  cases reader with
  | plain buffer =>
    by_cases enough : count ≤ buffer.left
    · rw [read, choose_plain_ok (Buffer.read_of_le enough), Buffer.span_eq] at run
      rw [← Except.ok.inj (Prod.mk.inj run).1, List.length_take]
      exact Nat.min_le_left _ _
    · rw [read, choose_plain_error (Buffer.read_of_lt (Nat.lt_of_not_le enough))] at run
      cases (Prod.mk.inj run).1
  | inflating inflater =>
    by_cases enough : count ≤ inflater.available
    · rw [read, choose_inflating (Inflater.read_of_le enough), Inflater.next_eq] at run
      rw [← Except.ok.inj (Prod.mk.inj run).1, List.length_take]
      exact Nat.min_le_left _ _
    · rw [read, choose_inflating (Inflater.read_of_lt (Nat.lt_of_not_le enough))] at run
      cases (Prod.mk.inj run).1

end Reader

/-- The number of bytes that a decoded fragment inserts was read from a word. -/
theorem Fragment.returns_read : Reader.Returns Storable Fragment.read := by
  refine (Reader.returns_any _).bind fun start _ => (Reader.returns_any _).bind fun stop _ =>
    (Reader.returns_any _).bind fun length _ => ?_
  split
  · exact Reader.returns_throw _ _
  · refine (Reader.returns_any _).bind fun left _ => ?_
    split
    · exact Reader.returns_throw _ _
    · refine (Reader.returns_read _).bind fun data few => Reader.returns_pure ?_
      have := length.toInt_lt
      show data.length < 2 ^ 31
      omega

namespace Patch

/-- By induction on the run, fragment by fragment. -/
theorem returns_read :
    Reader.Returns (fun patch => ∀ fragment ∈ patch, fragment.Storable) Patch.read := by
  intro reader patch moved run
  fun_induction Patch.read reader generalizing patch moved with
  | case1 => cases (Prod.mk.inj run).1
  | case2 =>
    obtain rfl := Except.ok.inj (Prod.mk.inj run).1
    exact nofun
  | case3 => cases (Prod.mk.inj run).1
  | case4 reader behind empty fragment after first fragments last rest ih =>
    obtain ⟨found, rfl⟩ := Prod.mk.inj run
    cases fragments with
    | error fault => cases found
    | ok fragments =>
      obtain rfl := Except.ok.inj found
      exact List.forall_mem_cons.2 ⟨Fragment.returns_read first, ih rest⟩

/-- **A patch that was decoded can be stored.** -/
theorem storable_of_decode? {bytes : Bytes} {patch : Patch} (h : decode? bytes = some patch) :
    ∀ fragment ∈ patch, fragment.Storable := by
  rw [decode?] at h
  generalize run : Patch.read (.ofBytes bytes) = outcome at h
  obtain ⟨result, moved⟩ := outcome
  cases result with
  | error fault => cases h
  | ok found =>
    cases h
    exact returns_read run

end Patch

end RevisionLog
