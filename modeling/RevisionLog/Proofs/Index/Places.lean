import Mathlib
import RevisionLog.Proofs.Index.Entries

/-!
# Places of records

`Outline.place` is where the record of a revision starts when the records of an index are read one
after another. In an inline index that is behind the records of the earlier revisions and behind
their chunks (`Outline.place_inline`). The records at these places are the ones that are checked
when the index is read (`Outline.Entries.nth`).

An entry of an inline index is not made of the place of its record but of its offset field, and
nothing compares the two. So an entry leads to its record exactly if the offset field counts the
chunks before it (`Outline.entryAt_offset_eq_iff`).
-/

namespace RevisionLog.Outline

/-- Where the record of a revision starts, behind the records and chunks of all earlier ones. -/
def place (inline : Bool) (bytes : Bytes) (revision : Nat) : Nat :=
  (behind inline bytes)^[revision] 0

/-- The record that lies at the place of a revision. -/
def recordAt (inline : Bool) (bytes : Bytes) (revision : Nat) : Record :=
  Record.ofIndex bytes (place inline bytes revision) revision

/-- The lengths of the chunks of all revisions before one, taken together. -/
def chunksBefore (inline : Bool) (bytes : Bytes) (revision : Nat) : Nat :=
  ((List.range revision).map fun earlier =>
    (recordAt inline bytes earlier).chunkLength.toInt.toNat).sum

/-- The offset field of the record at the place of a revision counts the chunks before it. -/
def Placed (inline : Bool) (bytes : Bytes) (revision : Nat) : Prop :=
  (recordAt inline bytes revision).offset = chunksBefore inline bytes revision

instance (inline : Bool) (bytes : Bytes) (revision : Nat) :
    Decidable (Placed inline bytes revision) :=
  inferInstanceAs (Decidable (_ = _))

variable {inline : Bool} {bytes : Bytes} {revision offset start n : Nat} {entries : List Entry}

@[simp] theorem place_zero : place inline bytes 0 = 0 := rfl

theorem place_succ : place inline bytes (n + 1) = behind inline bytes (place inline bytes n) :=
  Function.iterate_succ_apply' _ _ _

theorem chunksBefore_succ : chunksBefore inline bytes (n + 1) =
    chunksBefore inline bytes n + (recordAt inline bytes n).chunkLength.toInt.toNat := by
  rw [chunksBefore, List.range_succ, List.map_append, List.sum_append, chunksBefore]
  simp

/-- The place of a record in an inline index is behind as many records as there are earlier
revisions, and behind their chunks. -/
theorem place_inline (bytes : Bytes) (n : Nat) :
    place true bytes n = Record.size * n + chunksBefore true bytes n := by
  induction n with
  | zero => rfl
  | succ n ih =>
    have chunk : (recordAt true bytes n).chunkLength = bytes.word (place true bytes n + 8) := rfl
    rw [place_succ, behind, if_pos rfl, ← chunk, chunksBefore_succ, Nat.mul_succ, ih]
    omega

/-- The record of each revision is checked at its place, and its entry is made there. By induction
on the records; those behind the first one are at the places counted from the second. -/
theorem Entries.nth_from (h : Entries inline bytes revision offset start entries)
    (known : n < entries.length) :
    let place := (behind inline bytes)^[n] start
    Checked inline bytes (revision + n) place ∧
      entries[n]? = some (entryAt inline bytes (revision + n)
        (if n = 0 then offset else (bytes.long place).toNat / 65536) place) := by
  induction h generalizing n with
  | last checked final =>
    obtain rfl : n = 0 := Nat.lt_one_iff.1 known
    exact ⟨checked, rfl⟩
  | @more revision offset start entries checked next ih =>
    cases n with
    | zero => exact ⟨checked, rfl⟩
    | succ n =>
      obtain ⟨later, found⟩ := ih (Nat.lt_of_succ_lt_succ known)
      rw [Nat.add_right_comm] at later found
      refine ⟨later, ?_⟩
      rw [List.getElem?_cons_succ, found, if_neg (Nat.succ_ne_zero n), Function.iterate_succ_apply]
      cases n with
      | zero => rfl
      | succ n => rfl

/-- The record of a revision is checked at its place, and its entry is made of its offset field. -/
theorem Entries.nth (h : Entries inline bytes 0 0 0 entries) (known : n < entries.length) :
    Checked inline bytes n (place inline bytes n) ∧
      entries[n]? = some
        (entryAt inline bytes n (recordAt inline bytes n).offset (place inline bytes n)) := by
  have nth := h.nth_from known
  rw [Nat.zero_add] at nth
  exact nth

/-- **An entry of an inline index leads to the place of its record** exactly if the offset field
counts the chunks before the record. -/
theorem entryAt_offset_eq_iff (bytes : Bytes) (n : Nat) :
    (entryAt true bytes n (recordAt true bytes n).offset (place true bytes n)).offset =
      place true bytes n ↔ Placed true bytes n := by
  rw [entryAt, if_pos rfl, place_inline, Placed]
  show _ + Record.size * n = _ ↔ _
  omega

/-- The chunk of a record that was checked is not of negative length, and its base is its revision
or an earlier one. -/
theorem Checked.recordAt (checked : Checked inline bytes n (place inline bytes n))
    (small : n ≤ 2 ^ 31) :
    0 ≤ (recordAt inline bytes n).chunkLength ∧ 0 ≤ (Outline.recordAt inline bytes n).base.toInt ∧
      (Outline.recordAt inline bytes n).base.toInt ≤ n :=
  ⟨checked.chunk, Int32.le_iff_toInt_le.1 checked.base, (checked.base_le small).2⟩

end RevisionLog.Outline
