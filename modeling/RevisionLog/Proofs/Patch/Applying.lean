import Mathlib
import RevisionLog.Proofs.Patch.Splicing

/-!
# When a patch applies

`Patch.bounds` lists where the fragments of a patch start and stop, between the ends of a base, and
`Patch.lengthOn` is the length of the base without what the fragments take out and with what they
put in. A patch applies to a base exactly if its bounds are in order and the length is the declared
one. Then it is the same as putting in the data of one fragment at a time, from the last one to the
first, and any other patch is refused as invalid (`Patch.apply_plain`).
-/

namespace RevisionLog

variable {base : Bytes} {done baseLength : Nat} {patch : Patch}

/-- A fragment inside a text makes it longer by its data and shorter by its span. -/
theorem Fragment.length_edit {fragment : Fragment} {text : Bytes}
    (start : 0 ≤ fragment.start.toInt) (forward : fragment.start.toInt ≤ fragment.stop.toInt)
    (inside : fragment.stop.toInt ≤ text.length) :
    ((fragment.edit text).length : Int) =
      text.length - (fragment.stop.toInt - fragment.start.toInt) + fragment.data.length := by
  rw [edit, List.length_append, List.length_append, List.length_take, List.length_drop]
  omega

namespace Patch

/-- Where the fragments start and stop, between the first `done` bytes of a base and its end. -/
def bounds (baseLength done : Nat) (patch : Patch) : List Int :=
  ↑done :: patch.flatMap (fun fragment => [fragment.start.toInt, fragment.stop.toInt]) ++
    [(baseLength : Int)]

/-- The length of a base without the spans of the fragments and with their data. -/
def lengthOn (baseLength : Nat) (patch : Patch) : Int :=
  baseLength - (patch.map fun fragment => fragment.stop.toInt - fragment.start.toInt).sum +
    (patch.map fun fragment => (fragment.data.length : Int)).sum

/-- Fragments follow one another inside a base exactly if their bounds are in order. By induction on
the fragments; in order, each bound is at most the last one, the end of the base. -/
theorem fits_iff_bounds (inside : done ≤ baseLength) :
    Fits baseLength done patch ↔ (bounds baseLength done patch).IsChain (· ≤ ·) := by
  induction patch generalizing done with
  | nil =>
    rw [Fits, bounds, List.flatMap_nil, List.cons_append, List.nil_append, List.isChain_pair,
      Int.ofNat_le]
    exact ⟨fun _ => inside, fun _ => trivial⟩
  | cons fragment patch ih =>
    have first : bounds baseLength done (fragment :: patch) = ↑done :: fragment.start.toInt ::
        fragment.stop.toInt ::
          (patch.flatMap (fun fragment => [fragment.start.toInt, fragment.stop.toInt]) ++
            [(baseLength : Int)]) := rfl
    rw [first, List.isChain_cons_cons, List.isChain_cons_cons, Fits]
    refine and_congr_right fun behind => and_congr_right fun forward => ?_
    have later : bounds baseLength fragment.stop.toInt.toNat patch = fragment.stop.toInt ::
        (patch.flatMap (fun fragment => [fragment.start.toInt, fragment.stop.toInt]) ++
          [(baseLength : Int)]) := by
      rw [bounds, Int.toNat_of_nonneg (by omega), List.cons_append]
    rw [← later]
    refine ⟨?_, fun rest => ?_⟩
    · rintro ⟨within, rest⟩
      exact (ih (by omega)).1 rest
    · have within : fragment.stop.toInt ≤ baseLength := by
        have ordered := List.isChain_iff_pairwise.1 rest
        rw [later] at ordered
        exact (List.pairwise_cons.1 ordered).1 _
          (List.mem_append_right _ (List.mem_singleton_self _))
      exact ⟨within, (ih (by omega)).2 rest⟩

/-- The length of an edited text. By induction on the fragments, the last of which is put in first.
-/
theorem length_edit (fits : Fits base.length done patch) :
    ((edit patch base).length : Int) = lengthOn base.length patch := by
  induction patch generalizing done with
  | nil =>
    rw [edit_nil, lengthOn, List.map_nil, List.map_nil, List.sum_nil, Int.sub_zero, Int.add_zero]
  | cons fragment patch ih =>
    obtain ⟨behind, forward, within, rest⟩ := fits
    have later := ih rest
    have enough := le_length_edit rest (by omega)
    rw [edit_cons, Fragment.length_edit (by omega) forward (by omega), later, lengthOn, lengthOn,
      List.map_cons, List.map_cons, List.sum_cons, List.sum_cons]
    omega

/-- **Applying a patch is splicing.** Whatever the cursor of the buffer that holds the base, a patch
applies exactly if its bounds are in order inside the base and no length is declared, or the one
that the patch makes; otherwise it is refused as invalid. If it applies, the text is the base with
the spans of the fragments replaced by their data, one at a time and the last one first. Its length
is the computed one, so that is not negative, and the declared one if there is one. -/
theorem apply_plain {buffer : Buffer} (fits : buffer.Fits) (cursor : buffer.position ≤ buffer.length)
    (declared : Int32) (small : ∀ fragment ∈ patch, fragment.Storable) :
    let base := buffer.slice
    let outcome := (Patch.apply declared patch (.plain buffer)).1
    ((∃ text, outcome = .ok text) ↔ (bounds base.length 0 patch).IsChain (· ≤ ·) ∧
      (declared = unknownLength ∨ declared.toInt = lengthOn base.length patch)) ∧
    (∀ fault, outcome = .error fault → fault.kind = .invalidData) ∧
    ∀ text, outcome = .ok text → text = patch.foldr Fragment.edit base ∧
      outputLength base.length 0 patch = .ok (text.length : Int) ∧
      text.length = lengthOn base.length patch ∧
      (declared ≠ unknownLength → declared.toInt = text.length) := by
  intro base outcome
  have there : Reader.At base buffer.position (.plain buffer) :=
    .plain fits rfl rfl (by rwa [fits.length_slice])
  have applies : (∃ text, patch.applied? declared base = some text) ↔
      (bounds base.length 0 patch).IsChain (· ≤ ·) ∧
        (declared = unknownLength ∨ declared.toInt = lengthOn base.length patch) := by
    rw [← fits_iff_bounds (Nat.zero_le _), applied?]
    split
    · rename_i proper
      exact ⟨fun _ => by rwa [← length_edit proper.1], fun _ => ⟨_, rfl⟩⟩
    · rename_i improper
      refine ⟨?_, fun proper => absurd ?_ improper⟩
      · rintro ⟨_, same⟩
        cases same
      · rwa [length_edit proper.1]
  rw [← applies]
  rcases apply_eq declared small there with ⟨fault, failed, kind, refused⟩ | ⟨made, applied⟩
  · have failed : outcome = .error fault := failed
    rw [failed, refused]
    refine ⟨⟨?_, ?_⟩, fun other same => ?_, fun text same => ?_⟩
    · rintro ⟨_, same⟩
      cases same
    · rintro ⟨_, same⟩
      cases same
    · rwa [← Except.error.inj same]
    · cases same
  · have made : outcome = .ok (edit patch base) := made
    rw [made, applied]
    refine ⟨⟨fun _ => ⟨_, rfl⟩, fun _ => ⟨_, rfl⟩⟩, fun fault same => ?_, fun text same => ?_⟩
    · cases same
    · obtain rfl := Except.ok.inj same
      rw [applied?] at applied
      split at applied
      · rename_i proper
        obtain ⟨ordered, length⟩ := proper
        have computed := outputLength_eq small ordered (Nat.zero_le _)
        rw [Int.natCast_zero, Int.sub_zero] at computed
        exact ⟨rfl, computed, length_edit ordered, length.resolve_left⟩
      · cases applied

/-- A window of six bytes into eight, with the cursor in the middle. -/
def sixBytes : Buffer := ⟨#[0, 1, 2, 3, 4, 5, 6, 0], 1, 6, 3⟩

/-- A patch with an insertion at each end of its base and a deletion in the middle. -/
def threeFragments : Patch := [⟨0, 0, [8, 8]⟩, ⟨2, 4, []⟩, ⟨6, 6, [9]⟩]

/-- The patch makes the seven bytes that are declared, and nothing else if eight are. -/
theorem apply_plain_three :
    (Patch.apply 7 threeFragments (.plain sixBytes)).1 = .ok [8, 8, 1, 2, 5, 6, 9] ∧
      ∃ fault, (Patch.apply 8 threeFragments (.plain sixBytes)).1 = .error fault ∧
        fault.kind = .invalidData := by
  have fits : sixBytes.Fits := by decide
  have small : ∀ fragment ∈ threeFragments, fragment.Storable := by decide
  obtain ⟨accepts, -, texts⟩ := apply_plain fits (by decide) 7 small
  obtain ⟨text, made⟩ := accepts.2 ⟨by decide, .inr (by decide)⟩
  obtain ⟨accepts', refuses, -⟩ := apply_plain fits (by decide) 8 small
  have spliced : text = [8, 8, 1, 2, 5, 6, 9] := by
    rw [(texts text made).1]
    decide
  refine ⟨by rw [made, spliced], ?_⟩
  cases run : (Patch.apply 8 threeFragments (.plain sixBytes)).1 with
  | error fault => exact ⟨fault, rfl, refuses fault run⟩
  | ok text => exact absurd (accepts'.1 ⟨text, run⟩).2 (by decide)

end Patch

end RevisionLog
