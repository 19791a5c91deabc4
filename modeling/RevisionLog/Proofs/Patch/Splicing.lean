import RevisionLog.Proofs.Patch.Reading

/-!
# What a patch makes of a text

`Patch.edit` applies the fragments of a patch one at a time, the last one first, so that each finds
the bytes before it where they were. `Patch.Fits` says that the fragments lie behind one another
and inside a base of some length. Applying a patch to a reader that shows a base
gives the edited base exactly if the patch fits and the length is as declared (`Patch.apply_at`).
The pass that computes the length and the pass that copies are dealt with one after the other
(`Patch.outputLength_eq`, `Patch.splice_at`), both by induction on the fragments.
-/

namespace RevisionLog

open Reader (At Damaged)

/-- A text with the span of a fragment replaced by its data. -/
def Fragment.edit (fragment : Fragment) (text : Bytes) : Bytes :=
  text.take fragment.start.toInt.toNat ++ fragment.data ++ text.drop fragment.stop.toInt.toNat

namespace Patch

/-- A text with all fragments of a patch applied to it, the last one first. -/
def edit (patch : Patch) (text : Bytes) : Bytes := patch.foldr Fragment.edit text

/-- The fragments follow one another behind the first `done` bytes of a base. -/
def Fits (baseLength : Nat) : (done : Nat) → Patch → Prop
  | _, [] => True
  | done, fragment :: patch =>
    done ≤ fragment.start.toInt ∧ fragment.start.toInt ≤ fragment.stop.toInt ∧
      fragment.stop.toInt ≤ baseLength ∧ Fits baseLength fragment.stop.toInt.toNat patch

instance decidableFits (baseLength : Nat) : ∀ done patch, Decidable (Fits baseLength done patch)
  | _, [] => isTrue trivial
  | _, fragment :: patch =>
    have := decidableFits baseLength fragment.stop.toInt.toNat patch
    inferInstanceAs (Decidable (_ ∧ _ ∧ _ ∧ _))

@[simp] theorem edit_nil (text : Bytes) : edit [] text = text := rfl

@[simp] theorem edit_cons (fragment : Fragment) (patch : Patch) (text : Bytes) :
    edit (fragment :: patch) text = fragment.edit (edit patch text) := rfl

/-- What is before the first fragment stays. -/
theorem take_edit {base : Bytes} {done : Nat} {patch : Patch} (fits : Fits base.length done patch)
    (count : Nat) (le : count ≤ done) (inside : done ≤ base.length) :
    (edit patch base).take count = base.take count := by
  induction patch generalizing done count with
  | nil => rfl
  | cons fragment patch ih =>
    obtain ⟨behind, forward, within, rest⟩ := fits
    have kept := ih rest fragment.start.toInt.toNat (by omega) (by omega)
    have length : (base.take fragment.start.toInt.toNat).length = fragment.start.toInt.toNat := by
      rw [List.length_take]
      omega
    rw [edit_cons, Fragment.edit, kept, List.append_assoc,
      List.take_append_of_le_length (by omega), List.take_take, Nat.min_eq_left (by omega)]

/-- The edited text behind the first `done` bytes, by the first fragment. -/
theorem drop_edit_cons {base : Bytes} {done : Nat} {fragment : Fragment} {patch : Patch}
    (fits : Fits base.length done (fragment :: patch)) :
    (edit (fragment :: patch) base).drop done =
      (base.drop done).take (fragment.start.toInt.toNat - done) ++ fragment.data ++
        (edit patch base).drop fragment.stop.toInt.toNat := by
  obtain ⟨behind, forward, within, rest⟩ := fits
  have kept := take_edit rest fragment.start.toInt.toNat (by omega) (by omega)
  have length : (base.take fragment.start.toInt.toNat).length = fragment.start.toInt.toNat := by
    rw [List.length_take]
    omega
  rw [edit_cons, Fragment.edit, kept, List.append_assoc,
    List.drop_append_of_le_length (by omega), List.append_assoc, List.drop_take]

theorem le_length_edit {base : Bytes} {done : Nat} {patch : Patch}
    (fits : Fits base.length done patch) (inside : done ≤ base.length) :
    done ≤ (edit patch base).length := by
  have kept := congrArg List.length (take_edit fits done (Nat.le_refl done) inside)
  rw [List.length_take, List.length_take] at kept
  omega

/-- The data of every fragment are a part of the edited text. -/
theorem length_data_le {base : Bytes} {done : Nat} {patch : Patch}
    (fits : Fits base.length done patch) {fragment : Fragment} (member : fragment ∈ patch) :
    fragment.data.length ≤ ((edit patch base).drop done).length := by
  induction patch generalizing done with
  | nil => cases member
  | cons first patch ih =>
    rw [drop_edit_cons fits, List.length_append, List.length_append]
    rcases List.mem_cons.1 member with rfl | later
    · omega
    · have := ih fits.2.2.2 later
      omega

/-! ## The pass that checks the fragments -/

/-- The computed length is that of the edited text. -/
theorem outputLength_eq {base : Bytes} {done : Nat} {patch : Patch}
    (small : ∀ fragment ∈ patch, fragment.Storable) (fits : Fits base.length done patch)
    (inside : done ≤ base.length) :
    outputLength base.length done patch = .ok ((edit patch base).length - done : Int) := by
  induction patch generalizing done with
  | nil => rfl
  | cons fragment patch ih =>
    obtain ⟨first, later⟩ := List.forall_mem_cons.1 small
    have spliced := congrArg List.length (drop_edit_cons fits)
    have enough := le_length_edit fits inside
    obtain ⟨behind, forward, within, rest⟩ := fits
    have final := le_length_edit rest (by omega)
    simp only [List.length_drop, List.length_append, List.length_take] at spliced
    rw [outputLength]
    simp only [behind, forward, within, and_self, if_true]
    rw [ih later rest (by omega), first.toInt_length]
    show Except.ok _ = Except.ok _
    congr 1
    omega

/-- Fragments that do not fit are noticed. -/
theorem outputLength_error {baseLength done : Nat} {patch : Patch}
    (h : ¬Fits baseLength done patch) :
    ∃ fault, outputLength baseLength done patch = .error fault ∧ fault.kind = .invalidData := by
  induction patch generalizing done with
  | nil => exact absurd trivial h
  | cons fragment patch ih =>
    rw [outputLength]
    by_cases order : done ≤ fragment.start.toInt ∧ fragment.start.toInt ≤ fragment.stop.toInt ∧
        fragment.stop.toInt ≤ baseLength
    · have later : ¬Fits baseLength fragment.stop.toInt.toNat patch := fun rest =>
        h ⟨order.1, order.2.1, order.2.2, rest⟩
      obtain ⟨fault, failed, kind⟩ := ih later
      simp only [order, and_self, if_true]
      rw [failed]
      exact ⟨fault, rfl, kind⟩
    · simp only [order, if_false]
      exact ⟨_, rfl, rfl⟩

/-! ## The pass that copies -/

/-- A span of the base is read from any position. -/
theorem span_at {base : Bytes} {position : Nat} {reader : Reader} (h : At base position reader)
    (start stop : Nat) (forward : start ≤ stop) (inside : stop ≤ base.length) :
    ∃ moved after, span start stop reader = (.ok ((base.drop start).take (stop - start)), moved) ∧
      At base after moved := by
  unfold span
  split
  · rename_i same
    subst same
    exact ⟨reader, position, by simp; rfl, h⟩
  · obtain ⟨there, sought, place⟩ := h.seek start (by omega)
    obtain ⟨moved, run, after⟩ := place.read (stop - start) (by omega)
    refine ⟨moved, _, ?_, after⟩
    rw [Reader.bind_apply, sought]
    exact run

theorem splice_at {base : Bytes} {done : Nat} {patch : Patch} (fits : Fits base.length done patch)
    (inside : done ≤ base.length) {position : Nat} {reader : Reader} (h : At base position reader) :
    ∃ moved after,
      splice base.length done patch reader = (.ok ((edit patch base).drop done), moved) ∧
        At base after moved := by
  induction patch generalizing done position reader with
  | nil =>
    obtain ⟨moved, after, run, there⟩ := span_at h done base.length inside (Nat.le_refl _)
    rw [List.take_of_length_le (by simp)] at run
    exact ⟨moved, after, run, there⟩
  | cons fragment patch ih =>
    have spliced := drop_edit_cons fits
    obtain ⟨behind, forward, within, rest⟩ := fits
    obtain ⟨between, position, before, there⟩ :=
      span_at h done fragment.start.toInt.toNat (by omega) (by omega)
    obtain ⟨moved, after, later, last⟩ := ih rest (by omega) there
    refine ⟨moved, after, ?_, last⟩
    rw [splice, Reader.bind_apply, before]
    simp only [Reader.bind_apply, later]
    rw [spliced]
    rfl

/-! ## Both passes -/

/-- The text that a patch makes of a base, if it fits and the length is as declared. -/
def applied? (patch : Patch) (declared : Int32) (base : Bytes) : Option Bytes :=
  if Fits base.length 0 patch ∧
      (declared = unknownLength ∨ declared.toInt = (edit patch base).length) then
    some (edit patch base)
  else none

/-- What a patch that was checked does to a reader: it is refused, or the edited text is made. -/
theorem apply_eq {base : Bytes} {position : Nat} {reader : Reader} (declared : Int32)
    {patch : Patch} (small : ∀ fragment ∈ patch, fragment.Storable) (h : At base position reader) :
    (∃ fault, (Patch.apply declared patch reader).1 = .error fault ∧ fault.kind = .invalidData ∧
      patch.applied? declared base = none) ∨
    (Patch.apply declared patch reader).1 = .ok (edit patch base) ∧
      patch.applied? declared base = some (edit patch base) := by
  have length : Reader.getLength reader = (.ok base.length, reader) := by
    rw [Reader.getLength, h.length_eq]
  rw [Patch.apply, Reader.bind_apply, length]
  dsimp only
  rw [Reader.bind_apply, Reader.liftM_apply, applied?]
  by_cases fits : Fits base.length 0 patch
  · rw [outputLength_eq small fits (Nat.zero_le _), Int.natCast_zero, Int.sub_zero]
    dsimp only
    by_cases declaredSo : declared = unknownLength ∨ declared.toInt = (edit patch base).length
    · obtain ⟨moved, after, run, -⟩ := splice_at fits (Nat.zero_le _) h
      rw [if_neg (by rintro ⟨known, other⟩; exact declaredSo.elim known other), run,
        if_pos ⟨fits, declaredSo⟩]
      exact .inr ⟨rfl, rfl⟩
    · rw [if_pos ⟨fun unknown => declaredSo (.inl unknown), fun same => declaredSo (.inr same)⟩,
        if_neg fun both => declaredSo both.2]
      exact .inl ⟨_, rfl, rfl, rfl⟩
  · obtain ⟨fault, failed, kind⟩ := outputLength_error fits
    rw [failed, if_neg fun both => fits both.1]
    exact .inl ⟨fault, rfl, kind, rfl⟩

/-- **Applying a patch is editing the text.** -/
theorem apply_at {base : Bytes} {position : Nat} {reader : Reader} (declared : Int32)
    {patch : Patch} (small : ∀ fragment ∈ patch, fragment.Storable) (h : At base position reader) :
    (Patch.apply declared patch reader).1.toOption = patch.applied? declared base := by
  rcases apply_eq declared small h with ⟨fault, failed, -, refused⟩ | ⟨made, applied⟩
  · rw [failed, refused]
    rfl
  · rw [made, applied]
    rfl

theorem apply_damaged {reader : Reader} (declared : Int32) (patch : Patch) (h : Damaged reader) :
    (Patch.apply declared patch reader).1.toOption = none := by
  obtain ⟨fault, length⟩ := h.length_eq
  have failed : Reader.getLength reader = (.error fault, reader) := by rw [Reader.getLength, length]
  rw [Patch.apply, Reader.bind_apply, failed]
  rfl

end Patch

end RevisionLog
