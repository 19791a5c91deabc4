import RevisionLog.Proofs.Patch.Splicing
import RevisionLog.Proofs.Reader.Left

/-!
# Patches on a base that was read before

The base of a patch may be a reader that a client has left. One that has run ahead starts again if
it goes back, and then all is well; otherwise it fails where it should read on, and
`Reader.spoiled?` is the fault, given the place of the first byte that is wanted of it. A patch
wants the bytes of the base that it keeps, and `Patch.firstKept?` is the place of the first one. So
a patch that applies to a text makes the same of a reader that `Reader.Has` this text, unless the
reader is spoiled at the first byte that is kept (`Patch.apply_of_has`). A patch that keeps nothing
never fails.
-/

namespace RevisionLog

open Reader (At Has)

namespace Reader

/-- The fault of reading on at `wanted`, if the decoder has run ahead of that. -/
def spoiled? (wanted : Nat) : Reader → Option Fault
  | .plain _ => none
  | .inflating inflater =>
    if inflater.taken = inflater.position ∨ wanted < inflater.position then none
    else some (if wanted = inflater.position then .inflatedEnd else .inflatedSkip)

variable {text : Bytes} {position : Nat} {reader : Reader}

/-- A reader in step with its text is not spoiled anywhere. -/
theorem At.not_spoiled (h : At text position reader) (wanted : Nat) :
    reader.spoiled? wanted = none := by
  cases h with
  | plain => rfl
  | inflating => exact if_pos (.inl rfl)

/-! Once the decoder has come to the end, it delivers nothing until it starts again. -/

theorem skip_zero (inflater : Inflater) :
    Reader.skip 0 (.inflating inflater) = (.ok (), .inflating inflater) :=
  choose_inflating (Inflater.skip_of_le (Nat.zero_le _))

theorem read_drained (text : Bytes) (position : Nat) {count : Nat} (some : 0 < count) :
    ∃ moved, Reader.read count
      (.inflating ⟨⟨text.toArray, .complete⟩, position, text.length⟩) =
        (.error .inflatedEnd, moved) := by
  have none : text.toArray.size - text.length < count := by rwa [List.size_toArray, Nat.sub_self]
  exact ⟨_, choose_inflating (Inflater.read_of_lt none)⟩

theorem skip_drained (text : Bytes) (position : Nat) {count : Nat} (some : 0 < count) :
    ∃ moved, Reader.skip count
      (.inflating ⟨⟨text.toArray, .complete⟩, position, text.length⟩) =
        (.error .inflatedSkip, moved) := by
  have none : text.toArray.size - text.length < count := by rwa [List.size_toArray, Nat.sub_self]
  exact ⟨_, choose_inflating (Inflater.skip_of_lt none rfl)⟩

end Reader

namespace Patch

/-- The place of the first byte of the base that a patch keeps, behind the first `done` bytes. -/
def firstKept? (baseLength : Nat) : (done : Nat) → Patch → Option Nat
  | done, [] => if done = baseLength then none else some done
  | done, fragment :: patch =>
    if done = fragment.start.toInt.toNat then firstKept? baseLength fragment.stop.toInt.toNat patch
    else some done

variable {base : Bytes} {reader : Reader} {start stop : Nat}

theorem span_self (place : Nat) (reader : Reader) : span place place reader = (.ok [], reader) := by
  rw [span, if_pos rfl]
  rfl

/-- Where the reader is not spoiled, a span is read from it, and it is in step with the base then.
-/
theorem span_of_has (h : Has base reader) (forward : start < stop) (inside : stop ≤ base.length)
    (sound : reader.spoiled? start = none) :
    ∃ moved after, span start stop reader = (.ok ((base.drop start).take (stop - start)), moved) ∧
      At base after moved := by
  cases h with
  | plain fits slice within =>
    exact span_at (.plain fits slice rfl within) start stop (Nat.le_of_lt forward) inside
  | @inflating position taken within decoder =>
    have there : At base position (.inflating ⟨⟨base.toArray, .complete⟩, position, position⟩) :=
      .inflating within
    by_cases step : taken = position
    · subst step
      exact span_at there start stop (Nat.le_of_lt forward) inside
    · have back : start < position := by
        rw [Reader.spoiled?] at sound
        split at sound
        · exact Or.resolve_left ‹_› step
        · cases sound
      -- Going back, both readers start again.
      have same : span start stop (.inflating ⟨⟨base.toArray, .complete⟩, position, taken⟩) =
          span start stop (.inflating ⟨⟨base.toArray, .complete⟩, position, position⟩) := by
        rw [span, if_neg (Nat.ne_of_lt forward), Reader.bind_apply, Reader.bind_apply,
          Reader.seek_inflating_of_lt back, Reader.seek_inflating_of_lt back]
      rw [same]
      exact span_at there start stop (Nat.le_of_lt forward) inside

/-- Where the reader is spoiled, no span is read from it. -/
theorem span_of_spoiled (h : Has base reader) (forward : start < stop) {fault : Fault}
    (spoiled : reader.spoiled? start = some fault) :
    ∃ moved, span start stop reader = (.error fault, moved) := by
  cases h with
  | plain => cases spoiled
  | @inflating position taken within decoder =>
    rw [Reader.spoiled?] at spoiled
    split at spoiled
    · cases spoiled
    · rename_i ahead
      have final : taken = base.length := decoder.resolve_left fun step => ahead (.inl step)
      have onward : position ≤ start := Nat.le_of_not_lt fun back => ahead (.inr back)
      subst final
      rw [span, if_neg (Nat.ne_of_lt forward), Reader.bind_apply,
        Reader.seek_inflating_of_le onward]
      by_cases here : start = position
      · subst here
        obtain ⟨moved, failed⟩ := Reader.read_drained base start (Nat.sub_pos_of_lt forward)
        rw [Nat.sub_self, Reader.skip_zero]
        rw [if_pos rfl] at spoiled
        cases spoiled
        exact ⟨moved, failed⟩
      · have behind : 0 < start - position := by omega
        obtain ⟨moved, failed⟩ := Reader.skip_drained base position behind
        rw [failed]
        rw [if_neg here] at spoiled
        cases spoiled
        exact ⟨moved, rfl⟩

/-- Where nothing is kept before the first fragment, nothing is read. -/
theorem splice_cons_of_eq {baseLength done : Nat} {fragment : Fragment} {patch : Patch}
    (nothing : done = fragment.start.toInt.toNat) :
    (splice baseLength done (fragment :: patch) reader).1 =
      (splice baseLength fragment.stop.toInt.toNat patch reader).1.map (fragment.data ++ ·) := by
  rw [splice, Reader.bind_apply, nothing, span_self]
  dsimp only
  rw [Reader.bind_apply]
  generalize splice baseLength fragment.stop.toInt.toNat patch reader = run
  obtain ⟨result, moved⟩ := run
  cases result <;> rfl

/-- What is spliced from a reader that has the base, if it is not spoiled at the first byte that is
kept. Up to that byte nothing is read; behind it the reader is in step. -/
theorem splice_of_has {done : Nat} {patch : Patch} (fits : Fits base.length done patch)
    (inside : done ≤ base.length) (h : Has base reader) :
    (splice base.length done patch reader).1 =
      ((firstKept? base.length done patch).bind (reader.spoiled? ·)).elim
        (.ok ((edit patch base).drop done)) .error := by
  induction patch generalizing done with
  | nil =>
    rw [splice, firstKept?]
    split
    · rename_i final
      rw [final, span_self, edit_nil, List.drop_length]
      rfl
    · rename_i more
      have forward : done < base.length := by omega
      rw [Option.bind_some]
      cases spoiled : reader.spoiled? done with
      | none =>
        obtain ⟨moved, after, run, -⟩ := span_of_has h forward (Nat.le_refl _) spoiled
        rw [run, List.take_of_length_le (by simp)]
        rfl
      | some fault =>
        obtain ⟨moved, failed⟩ := span_of_spoiled h forward spoiled
        rw [failed]
        rfl
  | cons fragment patch ih =>
    have spliced := drop_edit_cons fits
    obtain ⟨behind, ahead, within, rest⟩ := fits
    rw [firstKept?]
    by_cases nothing : done = fragment.start.toInt.toNat
    · rw [if_pos nothing, splice_cons_of_eq nothing, ih rest (by omega), spliced, nothing,
        Nat.sub_self, List.take_zero, List.nil_append]
      cases (firstKept? base.length fragment.stop.toInt.toNat patch).bind
        (reader.spoiled? ·) <;> rfl
    · have forward : done < fragment.start.toInt.toNat := by omega
      rw [if_neg nothing, Option.bind_some, splice, Reader.bind_apply, spliced]
      cases spoiled : reader.spoiled? done with
      | none =>
        obtain ⟨between, position, before, there⟩ := span_of_has h forward (by omega) spoiled
        obtain ⟨moved, after, later, -⟩ := splice_at rest (by omega) there
        rw [before]
        dsimp only
        rw [Reader.bind_apply, later]
        rfl
      | some fault =>
        obtain ⟨moved, failed⟩ := span_of_spoiled h forward spoiled
        rw [failed]
        rfl

/-- **A patch that applies to a text applies to a reader that has the text**, unless the reader is
spoiled where the first byte is kept. -/
theorem apply_of_has {patch : Patch} {declared : Int32} {text : Bytes}
    (small : ∀ fragment ∈ patch, fragment.Storable)
    (applies : patch.applied? declared base = some text) (h : Has base reader) :
    (Patch.apply declared patch reader).1 =
      ((firstKept? base.length 0 patch).bind (reader.spoiled? ·)).elim (.ok text) .error := by
  rw [applied?] at applies
  split at applies
  · rename_i proper
    obtain ⟨fits, declaredSo⟩ := proper
    cases applies
    have length : Reader.getLength reader = (.ok base.length, reader) := by
      rw [Reader.getLength, h.length_eq]
    have spliced := splice_of_has fits (Nat.zero_le _) h
    rw [List.drop_zero] at spliced
    rw [Patch.apply, Reader.bind_apply, length]
    dsimp only
    rw [Reader.bind_apply, Reader.liftM_apply, outputLength_eq small fits (Nat.zero_le _),
      Int.natCast_zero, Int.sub_zero]
    dsimp only
    rw [if_neg (by rintro ⟨known, other⟩; exact declaredSo.elim known other), spliced]
  · cases applies

end Patch

end RevisionLog
