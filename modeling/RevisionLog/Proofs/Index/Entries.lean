import RevisionLog.Proofs.Index.Fields

/-!
# The records behind an outline

`Outline.Entries` says of the bytes of an index which entries their records stand for, one record
after another from some place on. Reading an index succeeds exactly with these
(`Outline.readEntries_whole`, `Outline.readIndex_whole`). That every record is checked shows in the
entries:

* a base is at most the revision, as numbers and not only as words, because there are at most
  `2 ^ 31` records (`Outline.Entries.length_le`, `Outline.Entries.base_le`);
* without chunks between the records, the record of revision `n` is at `64 * n`
  (`Outline.Entries.split`).
-/

namespace RevisionLog

namespace Outline

/-- Where the record behind the one at a place starts: an inline index has a chunk between them. -/
def behind (inline : Bool) (bytes : Bytes) (place : Nat) : Nat :=
  place + Record.size + if inline then (bytes.word (place + 8)).toInt.toNat else 0

theorem le_behind (inline : Bool) (bytes : Bytes) (place : Nat) :
    place + Record.size ≤ behind inline bytes place := Nat.le_add_right _ _

theorem behind_split (bytes : Bytes) (place : Nat) :
    behind false bytes place = place + Record.size := rfl

/-- The entry of the record of a revision at a place of an index. Its offset field is that of
another record's place only in a damaged index, so the offset is given. -/
def entryAt (inline : Bool) (bytes : Bytes) (revision offset place : Nat) : Entry :=
  ⟨offset + (if inline then Record.size * revision else 0), (bytes.word (place + 16)).toInt.toNat⟩

/-- What is checked of a record at a place of an index. -/
structure Checked (inline : Bool) (bytes : Bytes) (revision place : Nat) : Prop where
  chunk : 0 ≤ bytes.word (place + 8)
  base : 0 ≤ bytes.word (place + 16)
  earlier : bytes.word (place + 16) ≤ Int32.ofNat revision
  room : behind inline bytes place ≤ bytes.length

/-- The records from a place on, the first of which is that of a revision, stand for the entries. -/
inductive Entries (inline : Bool) (bytes : Bytes) :
    (revision offset place : Nat) → List Entry → Prop
  | last {revision offset place : Nat} (checked : Checked inline bytes revision place)
      (final : behind inline bytes place = bytes.length) :
      Entries inline bytes revision offset place [entryAt inline bytes revision offset place]
  | more {revision offset place : Nat} {entries : List Entry}
      (checked : Checked inline bytes revision place)
      (next : Entries inline bytes (revision + 1)
        ((bytes.long (behind inline bytes place)).toNat / 65536) (behind inline bytes place) entries) :
      Entries inline bytes revision offset place
        (entryAt inline bytes revision offset place :: entries)

variable {inline : Bool} {bytes : Bytes} {revision offset place : Nat} {entries : List Entry}

theorem Entries.checked (h : Entries inline bytes revision offset place entries) :
    Checked inline bytes revision place := by
  cases h <;> assumption

/-! ## Reading -/

theorem readEntry_whole {entry : Entry} {after : Buffer} :
    readEntry inline revision offset (Buffer.whole bytes (place + 8)) = .ok (entry, after) ↔
      Checked inline bytes revision place ∧ entry = entryAt inline bytes revision offset place ∧
        after = Buffer.whole bytes (behind inline bytes place) := by
  have whole : place + 8 + 12 + (44 + if inline then (bytes.word (place + 8)).toInt.toNat else 0) =
      behind inline bytes place := by
    rw [behind, Record.size]
    omega
  rw [readEntry]
  simp only [Buffer.bind_iff_of Buffer.int32_whole, Nat.add_assoc, Nat.reduceAdd]
  simp only [Nat.add_assoc, Nat.reduceAdd] at whole
  refine ⟨?_, ?_⟩
  · rintro ⟨-, -, inside, run⟩
    split at run
    · exact absurd run Buffer.throw_ne_ok
    · rename_i chunk
      split at run
      · exact absurd run Buffer.throw_ne_ok
      · rename_i base
        rw [Buffer.bind_iff_of Buffer.skip_whole, Buffer.pure_eq_ok] at run
        simp only [Nat.add_assoc, whole] at run
        obtain ⟨room, rfl, rfl⟩ := run
        obtain ⟨nonneg, earlier⟩ := not_or.1 base
        exact ⟨⟨Int32.not_lt.1 chunk, Int32.not_lt.1 nonneg, Int32.not_lt.1 earlier, room⟩, rfl, rfl⟩
  · rintro ⟨⟨chunk, base, earlier, room⟩, rfl, rfl⟩
    have inside : place + 20 ≤ bytes.length :=
      Nat.le_trans (Nat.add_le_add_left (by decide) place)
        (Nat.le_trans (le_behind inline bytes place) room)
    refine ⟨by omega, by omega, inside, ?_⟩
    rw [if_neg (Int32.not_lt.2 chunk),
      if_neg (not_or.2 ⟨Int32.not_lt.2 base, Int32.not_lt.2 earlier⟩),
      Buffer.bind_iff_of Buffer.skip_whole, Buffer.pure_eq_ok]
    simp only [Nat.add_assoc, whole]
    exact ⟨room, rfl, trivial⟩

/-- By induction on the bytes that are left one way, and on the records the other. -/
theorem readEntries_whole {after : Buffer} :
    readEntries inline revision offset (Buffer.whole bytes (place + 8)) = .ok (entries, after) ↔
      Entries inline bytes revision offset place entries ∧
        after = Buffer.whole bytes bytes.length := by
  refine ⟨?_, ?_⟩
  · intro run
    induction left : bytes.length - place using Nat.strongRecOn
      generalizing revision offset place entries after with
    | ind left ih =>
      rw [readEntries] at run
      split at run
      · cases run
      · rename_i entry moved first
        obtain ⟨checked, rfl, rfl⟩ := readEntry_whole.1 first
        have onward := le_behind inline bytes place
        have room := checked.room
        rw [Record.size] at onward
        rw [Buffer.isEmpty, Buffer.length_whole, Buffer.position_whole] at run
        split at run
        · rename_i final
          have final : behind inline bytes place = bytes.length :=
            Nat.le_antisymm room (of_decide_eq_true final)
          cases run
          exact ⟨.last checked final, by rw [final]⟩
        · split at run
          · cases run
          · rename_i word next sought
            obtain ⟨inside, rfl, rfl⟩ := Buffer.uint64_whole.1 sought
            split at run
            · cases run
            · rename_i rest last found
              cases run
              obtain ⟨rest, rfl⟩ := ih _ (by omega) found rfl
              exact ⟨.more checked rest, rfl⟩
  · rintro ⟨stand, rfl⟩
    induction stand with
    | last checked final =>
      rw [readEntries, readEntry_whole.2 ⟨checked, rfl, rfl⟩]
      simp only [Buffer.isEmpty, Buffer.length_whole, Buffer.position_whole, final, Nat.le_refl,
        decide_true, if_true]
    | @more revision offset place entries checked next ih =>
      have room := next.checked.room
      have onward := le_behind inline bytes (behind inline bytes place)
      rw [Record.size] at onward
      have sought : Buffer.uint64 (Buffer.whole bytes (behind inline bytes place)) =
          .ok (bytes.long (behind inline bytes place),
            Buffer.whole bytes (behind inline bytes place + 8)) :=
        Buffer.uint64_whole.2 ⟨by omega, rfl, rfl⟩
      have unread : ¬bytes.length ≤ behind inline bytes place := by omega
      rw [readEntries, readEntry_whole.2 ⟨checked, rfl, rfl⟩]
      simp only [Buffer.isEmpty, Buffer.length_whole, Buffer.position_whole, unread, decide_false,
        Bool.false_eq_true, if_false]
      rw [sought]
      simp only [ih]

/-- **An index is read exactly if its header can be and all its records are sound.** -/
theorem readIndex_whole {header : Header} {after : Buffer} :
    readIndex (Buffer.whole bytes 0) = .ok ((header, entries), after) ↔
      (Header.parse (bytes.word 0) = .ok header ∧ header.version = .ng ∧
        Entries header.isInline bytes 0 0 0 entries) ∧ after = Buffer.whole bytes bytes.length := by
  rw [readIndex, Buffer.bind_iff_of Buffer.int32_whole, Buffer.liftM_bind_eq_ok]
  refine ⟨?_, ?_⟩
  · rintro ⟨-, found, parsed, run⟩
    split at run
    · exact absurd run Buffer.throw_ne_ok
    · rename_i version
      rw [Buffer.bind_iff_of Buffer.skip_whole, Buffer.bind_eq_ok] at run
      obtain ⟨-, _, _, read, same⟩ := run
      cases same
      obtain ⟨stand, rfl⟩ := readEntries_whole.1 read
      exact ⟨⟨parsed, Decidable.not_not.1 version, stand⟩, rfl⟩
  · rintro ⟨⟨parsed, version, stand⟩, rfl⟩
    have room := stand.checked.room
    have onward := le_behind header.isInline bytes 0
    rw [Record.size] at onward
    refine ⟨by omega, header, parsed, ?_⟩
    rw [if_neg (not_not_intro version), Buffer.bind_iff_of Buffer.skip_whole, Buffer.bind_eq_ok]
    exact ⟨by omega, entries, _, readEntries_whole.2 ⟨stand, rfl⟩, rfl⟩

/-! ## What the checks mean -/

/-- A base that is at most its revision as a word is so as a number. -/
theorem Checked.base_le (checked : Checked inline bytes revision place)
    (small : revision ≤ 2 ^ 31) :
    revision < 2 ^ 31 ∧ (bytes.word (place + 16)).toInt ≤ revision := by
  have base := Int32.le_iff_toInt_le.1 checked.base
  have earlier := Int32.le_iff_toInt_le.1 checked.earlier
  rw [Int32.toInt_zero] at base
  have wrapped : (Int32.ofNat revision).toInt = (revision : Int).bmod (2 ^ 32) :=
    Int32.toInt_ofNat'
  rw [wrapped, Int.bmod] at earlier
  omega

theorem Entries.length_le (h : Entries inline bytes revision offset place entries)
    (small : revision ≤ 2 ^ 31) : revision + entries.length ≤ 2 ^ 31 := by
  induction h with
  | last checked final => exact (checked.base_le small).1
  | more checked next ih =>
    have := ih (checked.base_le small).1
    rw [List.length_cons]
    omega

/-- The base of an entry is its revision or an earlier one. -/
theorem Entries.base_le (h : Entries inline bytes revision offset place entries)
    (small : revision ≤ 2 ^ 31) {n : Nat} {entry : Entry} (found : entries[n]? = some entry) :
    entry.base ≤ revision + n := by
  have first : ∀ {revision offset place : Nat}, Checked inline bytes revision place →
      revision ≤ 2 ^ 31 → (entryAt inline bytes revision offset place).base ≤ revision := by
    intro revision offset place checked small
    have := (checked.base_le small).2
    show (bytes.word (place + 16)).toInt.toNat ≤ revision
    omega
  induction h generalizing n with
  | last checked final =>
    obtain ⟨rfl, rfl⟩ : n = 0 ∧ _ = entry := by
      rw [List.getElem?_singleton] at found
      split at found
      · exact ⟨‹_›, Option.some.inj found⟩
      · cases found
    exact first checked small
  | more checked next ih =>
    cases n with
    | zero =>
      cases found
      exact first checked small
    | succ n =>
      have := ih (checked.base_le small).1 found
      omega

/-- Without chunks between them, the records follow one another. -/
theorem Entries.split (h : Entries false bytes revision offset place entries) {n : Nat}
    (known : n < entries.length) :
    Checked false bytes (revision + n) (place + Record.size * n) := by
  induction h generalizing n with
  | last checked final =>
    obtain rfl : n = 0 := Nat.lt_one_iff.1 known
    exact checked
  | more checked next ih =>
    cases n with
    | zero => exact checked
    | succ n =>
      have later := ih (Nat.lt_of_succ_lt_succ known)
      rw [behind_split, Nat.add_right_comm _ 1, Nat.add_right_comm _ Record.size] at later
      exact later

end Outline

end RevisionLog
