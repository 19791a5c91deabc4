import RevisionLog.Proofs.Index.Entries

/-!
# Writing an index

`Index.write` writes the revisions of a log as they are stored: records one after another, each with
its chunk behind it if the index is inline. `Index.writeData` writes the chunks of the others. The
offset fields are the running sums of the lengths of the chunks (`Index.start`).

What is behind the place of a record is the index of the revisions from that one on
(`Index.drop_write`), so a record reads back as it was written (`Index.ofIndex_write`), and the
whole index as one entry for each revision (`Index.entries_write`).
-/

namespace RevisionLog

/-- The word that stands for a header: the version in its low half, the features in its high half.
-/
def Header.word (header : Header) : Int32 :=
  (UInt32.ofNat (header.version.number + 65536 * header.features.bits.toNat)).toInt32

theorem Header.parse_word {header : Header} (version : header.version = .ng) :
    parse header.word = .ok header := by
  rcases header with ⟨_, ⟨_ | _, _ | _⟩⟩ <;> cases version <;> rfl

/-- What is stored of a revision, apart from where its chunk starts. -/
structure Stored where
  flags : Flags
  textLength : Int32
  base : Int32
  link : Int32
  parent1 : Int32
  parent2 : Int32
  node : NodeId
  /-- What fills the record up. -/
  padding : Bytes
  padding_length : padding.length = 12
  chunk : Bytes

namespace Stored

/-- A revision of which only the chunk matters. -/
def ofChunk (base textLength : Int32) (chunk : Bytes) : Stored where
  flags := ⟨0⟩
  textLength
  base
  link := 0
  parent1 := Revision.none
  parent2 := Revision.none
  node := .null
  padding := List.replicate 12 0
  padding_length := rfl
  chunk

/-- The fields of the record behind the offset field. -/
def fields (stored : Stored) : Bytes :=
  [Bytes.ofInt32 (Int32.ofNat stored.chunk.length), Bytes.ofInt32 stored.textLength,
    Bytes.ofInt32 stored.base, Bytes.ofInt32 stored.link, Bytes.ofInt32 stored.parent1,
    Bytes.ofInt32 stored.parent2, stored.node.bytes, stored.padding].flatten

@[simp] theorem length_fields (stored : Stored) : stored.fields.length = 56 := by
  simp [fields, stored.node.length_eq, stored.padding_length]

/-- The record of a revision whose chunk starts at an offset. -/
def record (stored : Stored) (revision offset : Nat) : Record where
  revision
  offset
  flags := stored.flags
  chunkLength := Int32.ofNat stored.chunk.length
  textLength := stored.textLength
  base := stored.base
  link := stored.link
  parent1 := stored.parent1
  parent2 := stored.parent2
  node := stored.node

/-- What can be stored as the revision of a number whose chunk starts at an offset. -/
structure Sound (stored : Stored) (revision offset : Nat) : Prop where
  chunk : stored.chunk.length < 2 ^ 31
  base : 0 ≤ stored.base.toInt ∧ stored.base.toInt ≤ revision
  small : offset < 2 ^ 48
  first : revision = 0 → offset = 0

instance (stored : Stored) (revision offset : Nat) : Decidable (stored.Sound revision offset) :=
  decidable_of_iff
    (stored.chunk.length < 2 ^ 31 ∧ (0 ≤ stored.base.toInt ∧ stored.base.toInt ≤ revision) ∧
      offset < 2 ^ 48 ∧ (revision = 0 → offset = 0))
    ⟨fun h => ⟨h.1, h.2.1, h.2.2.1, h.2.2.2⟩, fun h => ⟨h.chunk, h.base, h.small, h.first⟩⟩

end Stored

namespace Index

/-- The offset field and the flags. In the first record the header takes the place of the upper
half. -/
def leading (header : Header) (revision offset : Nat) (flags : Flags) : Bytes :=
  let word := offset * 65536 + flags.bits.toNat
  if revision = 0 then Bytes.ofInt32 header.word ++ Bytes.ofNat 4 word else Bytes.ofNat 8 word

@[simp] theorem length_leading (header : Header) (revision offset : Nat) (flags : Flags) :
    (leading header revision offset flags).length = 8 := by
  rw [leading]
  split <;> simp

/-- The index from a revision on, whose chunk starts at an offset. -/
def writeFrom (header : Header) : (revision offset : Nat) → List Stored → Bytes
  | _, _, [] => []
  | revision, offset, stored :: rest =>
    leading header revision offset stored.flags ++ stored.fields ++
      (if header.isInline then stored.chunk else []) ++
        writeFrom header (revision + 1) (offset + stored.chunk.length) rest

/-- The index of a log with these revisions. -/
def write (header : Header) (revisions : List Stored) : Bytes := writeFrom header 0 0 revisions

/-- The data file of a log with these revisions that is not inline. -/
def writeData (revisions : List Stored) : Bytes := revisions.flatMap (·.chunk)

/-- Where the chunk of a revision starts, counting the bytes of all chunks only. -/
def start (revisions : List Stored) (revision : Nat) : Nat :=
  (writeData (revisions.take revision)).length

/-- Where the record of a revision starts in the index. -/
def position (header : Header) (revisions : List Stored) (revision : Nat) : Nat :=
  Record.size * revision + if header.isInline then start revisions revision else 0

/-- The entries of the revisions from one on, whose chunk starts at an offset. -/
def entriesFrom (inline : Bool) : (revision offset : Nat) → List Stored → List Entry
  | _, _, [] => []
  | revision, offset, stored :: rest =>
    ⟨offset + (if inline then Record.size * revision else 0), stored.base.toInt.toNat⟩ ::
      entriesFrom inline (revision + 1) (offset + stored.chunk.length) rest

variable {header : Header} {revision offset place : Nat} {stored : Stored}
  {rest revisions : List Stored}
  {bytes : Bytes}

/-! ## Reading a record that was written -/

/-- The offset field gives the offset and the flags. -/
theorem long_leading (flags : Flags) (tail : Bytes) (small : offset < 2 ^ 48)
    (first : revision = 0 → offset = 0) :
    let long := Bytes.long (leading header revision offset flags ++ tail) 0
    (revision ≠ 0 → long.toNat / 65536 = offset) ∧ long.toUInt16 = flags.bits := by
  have low := flags.bits.toNat_lt
  have front : Bytes.long (leading header revision offset flags ++ tail) 0 =
      Bytes.uint64 (leading header revision offset flags) := by
    rw [Bytes.long, List.drop_zero, List.take_left' (length_leading ..)]
  simp only [front, Bytes.uint64]
  refine ⟨?_, ?_⟩
  · intro later
    rw [leading, if_neg later, Bytes.toNat_ofNat, UInt64.toNat_ofNat']
    omega
  · apply UInt16.toNat_inj.1
    rw [UInt64.toNat_toUInt16, UInt64.toNat_ofNat', leading]
    split
    · rename_i start
      rw [first start, Bytes.toNat_append, Bytes.toNat_ofNat, Bytes.length_ofNat]
      omega
    · rw [Bytes.toNat_ofNat]
      omega

/-- What is read at the place of a record that was written, word by word. -/
theorem words_write (there : bytes.drop place = writeFrom header revision offset (stored :: rest)) :
    bytes.word (place + 8) = Int32.ofNat stored.chunk.length ∧
      bytes.word (place + 12) = stored.textLength ∧ bytes.word (place + 16) = stored.base ∧
      bytes.word (place + 20) = stored.link ∧ bytes.word (place + 24) = stored.parent1 ∧
      bytes.word (place + 28) = stored.parent2 ∧
      (bytes.drop (place + 32)).take 20 = stored.node.bytes := by
  have node : ∀ tail : Bytes, (stored.node.bytes ++ tail).take 20 = stored.node.bytes :=
    fun tail => List.take_left' stored.node.length_eq
  simp only [Bytes.word_add, ← List.drop_drop, there, writeFrom, Stored.fields, List.flatten_cons,
    List.append_assoc]
  simp [Bytes.word_append, List.drop_append, List.drop_of_length_le, node]

/-- The offset field at the place of a record that was written. -/
theorem long_write (there : bytes.drop place = writeFrom header revision offset (stored :: rest))
    (sound : stored.Sound revision offset) :
    (revision ≠ 0 → (bytes.long place).toNat / 65536 = offset) ∧
      (bytes.long place).toUInt16 = stored.flags.bits := by
  have long : bytes.long place = Bytes.long (bytes.drop place) 0 := by
    rw [Bytes.long, Bytes.long, List.drop_zero]
  rw [long, there, writeFrom, List.append_assoc, List.append_assoc]
  exact long_leading stored.flags _ sound.small sound.first

/-- **A record reads back as it was written.** -/
theorem ofIndex_write (there : bytes.drop place = writeFrom header revision offset (stored :: rest))
    (sound : stored.Sound revision offset) :
    Record.ofIndex bytes place revision = stored.record revision offset := by
  obtain ⟨chunkLength, textLength, base, link, parent1, parent2, node⟩ := words_write there
  obtain ⟨high, low⟩ := long_write there sound
  have found : NodeId.ofBytes stored.node.bytes = .ok stored.node := dif_pos stored.node.length_eq
  rw [Record.ofIndex, chunkLength, textLength, base, link, parent1, parent2, node, low, found,
    Stored.record]
  congr 1
  by_cases start : revision = 0
  · rw [if_pos start, sound.first start]
  · rw [if_neg start, high start]

/-! ## The whole index -/

/-- Where the record after one that was written starts. -/
theorem behind_write (there : bytes.drop place = writeFrom header revision offset (stored :: rest))
    (sound : stored.Sound revision offset) :
    Outline.behind header.isInline bytes place =
      place + (Record.size + if header.isInline then stored.chunk.length else 0) := by
  have length : (Int32.ofNat stored.chunk.length).toInt = stored.chunk.length :=
    Int32.toInt_ofNat_of_lt sound.chunk
  rw [Outline.behind, (words_write there).1, length, Int.toNat_natCast, Nat.add_assoc]

/-- What is behind the first record and its chunk. -/
theorem drop_writeFrom (header : Header) (revision offset : Nat) (stored : Stored)
    (rest : List Stored) :
    (writeFrom header revision offset (stored :: rest)).drop
        (Record.size + if header.isInline then stored.chunk.length else 0) =
      writeFrom header (revision + 1) (offset + stored.chunk.length) rest := by
  rw [writeFrom]
  apply List.drop_left'
  simp only [List.length_append, length_leading, Stored.length_fields, Record.size]
  split <;> simp

theorem drop_behind (there : bytes.drop place = writeFrom header revision offset (stored :: rest))
    (sound : stored.Sound revision offset) :
    bytes.drop (Outline.behind header.isInline bytes place) =
      writeFrom header (revision + 1) (offset + stored.chunk.length) rest := by
  rw [behind_write there sound, ← List.drop_drop, there, drop_writeFrom]

/-- The chunk of an inline index lies behind its record. -/
theorem chunk_write (inline : header.isInline)
    (there : bytes.drop place = writeFrom header revision offset (stored :: rest)) :
    (bytes.drop (place + Record.size)).take stored.chunk.length = stored.chunk := by
  rw [← List.drop_drop, there, writeFrom, if_pos inline, List.append_assoc, List.append_assoc,
    ← List.append_assoc, List.drop_left' (by simp [Record.size]), List.take_left' rfl]

theorem checked_write (there : bytes.drop place = writeFrom header revision offset (stored :: rest))
    (sound : stored.Sound revision offset) (small : revision < 2 ^ 31) :
    Outline.Checked header.isInline bytes revision place := by
  obtain ⟨chunkLength, -, base, -⟩ := words_write there
  refine ⟨?_, ?_, ?_, ?_⟩
  · rw [chunkLength, Int32.le_iff_toInt_le, Int32.toInt_ofNat_of_lt sound.chunk]
    exact Int.natCast_nonneg _
  · rw [base, Int32.le_iff_toInt_le]
    exact sound.base.1
  · rw [base, Int32.le_iff_toInt_le, Int32.toInt_ofNat_of_lt small]
    exact sound.base.2
  · have length := congrArg List.length there
    simp only [List.length_drop, writeFrom, List.length_append, length_leading,
      Stored.length_fields] at length
    rw [behind_write there sound, Record.size]
    split <;> simp_all <;> omega

/-- All revisions can be stored one after another. -/
def Sound (revision offset : Nat) (revisions : List Stored) : Prop :=
  ∀ (n : Nat) (stored : Stored), revisions[n]? = some stored →
    stored.Sound (revision + n) (offset + start revisions n)

theorem sound_iff : Sound revision offset revisions ↔ ∀ (n : Nat) (known : n < revisions.length),
    revisions[n].Sound (revision + n) (offset + start revisions n) := by
  refine ⟨fun sound n known => sound n _ (List.getElem?_eq_getElem known), ?_⟩
  intro all n stored found
  obtain ⟨known, rfl⟩ := List.getElem?_eq_some_iff.1 found
  exact all n known

instance (revision offset : Nat) (revisions : List Stored) :
    Decidable (Sound revision offset revisions) := decidable_of_iff _ sound_iff.symm

theorem start_succ (stored : Stored) (rest : List Stored) (n : Nat) :
    start (stored :: rest) (n + 1) = stored.chunk.length + start rest n := by
  rw [start, start, List.take_succ_cons, writeData, List.flatMap_cons, List.length_append,
    writeData]

theorem Sound.tail (sound : Sound revision offset (stored :: rest)) :
    Sound (revision + 1) (offset + stored.chunk.length) rest := by
  intro n other found
  have next := sound (n + 1) other found
  rwa [start_succ, ← Nat.add_assoc, ← Nat.add_assoc, Nat.add_right_comm] at next

theorem Sound.head (sound : Sound revision offset (stored :: rest)) :
    stored.Sound revision offset :=
  sound 0 stored rfl

/-- **A written index has one entry for each revision.** By induction on the revisions. -/
theorem entries_write (there : bytes.drop place = writeFrom header revision offset revisions)
    (some : revisions ≠ []) (sound : Sound revision offset revisions)
    (few : revision + revisions.length ≤ 2 ^ 31) :
    Outline.Entries header.isInline bytes revision offset place
      (entriesFrom header.isInline revision offset revisions) := by
  induction revisions generalizing revision offset place with
  | nil => exact absurd rfl some
  | cons stored rest ih =>
    rw [List.length_cons] at few
    have checked := checked_write there sound.head (by omega)
    have next := drop_behind there sound.head
    have entry : (⟨offset + (if header.isInline then Record.size * revision else 0),
        stored.base.toInt.toNat⟩ : Entry) =
          Outline.entryAt header.isInline bytes revision offset place := by
      rw [Outline.entryAt, (words_write there).2.2.1]
    rw [entriesFrom, entry]
    cases rest with
    | nil =>
      have final := List.drop_eq_nil_iff.1 next
      exact .last checked (Nat.le_antisymm checked.room final)
    | cons other rest =>
      refine .more checked ?_
      have field : (bytes.long (Outline.behind header.isInline bytes place)).toNat / 65536 =
          offset + stored.chunk.length := (long_write next sound.tail.head).1 (Nat.succ_ne_zero _)
      rw [field]
      exact ih next (List.cons_ne_nil _ _) sound.tail (by rw [List.length_cons] at few ⊢; omega)

theorem writeFrom_eq_nil : writeFrom header revision offset revisions = [] ↔ revisions = [] := by
  cases revisions with
  | nil => exact ⟨fun _ => rfl, fun _ => rfl⟩
  | cons stored rest =>
    refine ⟨fun none => ?_, nofun⟩
    have length := congrArg List.length none
    simp [writeFrom] at length

/-- An outline of a written index has an entry for each revision. By induction on the records. -/
theorem length_of_entries {entries : List Entry} {offset' : Nat}
    (stand : Outline.Entries header.isInline bytes revision offset' place entries)
    (there : bytes.drop place = writeFrom header revision offset revisions)
    (sound : Sound revision offset revisions) : entries.length = revisions.length := by
  have unread : ∀ {revision place : Nat}, Outline.Checked header.isInline bytes revision place →
      bytes.drop place ≠ [] := by
    intro revision place checked none
    have room := Nat.le_trans (Outline.le_behind ..) checked.room
    have final := List.drop_eq_nil_iff.1 none
    rw [Record.size] at room
    omega
  induction stand generalizing offset revisions with
  | last checked final =>
    cases revisions with
    | nil => exact absurd there (unread checked)
    | cons stored rest =>
      have next := drop_behind there sound.head
      rw [final, List.drop_length] at next
      rw [writeFrom_eq_nil.1 next.symm]
      rfl
  | more checked next ih =>
    cases revisions with
    | nil => exact absurd there (unread checked)
    | cons stored rest =>
      rw [List.length_cons, List.length_cons, ih (drop_behind there sound.head) sound.tail]

theorem position_zero (header : Header) (revisions : List Stored) :
    position header revisions 0 = 0 := by
  rw [position, start, List.take_zero]
  split <;> rfl

theorem position_succ (header : Header) (stored : Stored) (rest : List Stored) (n : Nat) :
    position header (stored :: rest) (n + 1) =
      (Record.size + if header.isInline then stored.chunk.length else 0) +
        position header rest n := by
  rw [position, position, start_succ, Nat.mul_succ]
  split <;> omega

/-- What is behind the positions of some records is the index from the next one on. -/
theorem drop_writeFrom_position (header : Header) (revision offset : Nat) (revisions : List Stored)
    {n : Nat} (known : n ≤ revisions.length) :
    (writeFrom header revision offset revisions).drop (position header revisions n) =
      writeFrom header (revision + n) (offset + start revisions n) (revisions.drop n) := by
  induction n generalizing revision offset revisions with
  | zero => rw [position_zero]; rfl
  | succ n ih =>
    cases revisions with
    | nil => cases known
    | cons stored rest =>
      rw [position_succ, ← List.drop_drop, drop_writeFrom, ih _ _ _ (Nat.le_of_succ_le_succ known),
        start_succ, Nat.add_assoc revision, Nat.add_comm 1, Nat.add_assoc offset,
        List.drop_succ_cons]

/-- The record of a revision starts at its position. -/
theorem drop_write (header : Header) {n : Nat} (found : revisions[n]? = some stored) :
    (write header revisions).drop (position header revisions n) =
      writeFrom header n (start revisions n) (stored :: revisions.drop (n + 1)) := by
  obtain ⟨known, same⟩ := List.getElem?_eq_some_iff.1 found
  rw [write, drop_writeFrom_position _ _ _ _ (Nat.le_of_lt known), Nat.zero_add, Nat.zero_add,
    ← same,
    List.getElem_cons_drop]

/-- The entry of each revision. -/
theorem getElem?_entriesFrom (inline : Bool) (revision offset : Nat) (revisions : List Stored)
    (n : Nat) :
    (entriesFrom inline revision offset revisions)[n]? = revisions[n]?.map fun stored =>
      ⟨offset + start revisions n + (if inline then Record.size * (revision + n) else 0),
        stored.base.toInt.toNat⟩ := by
  induction revisions generalizing revision offset n with
  | nil => rfl
  | cons stored rest ih =>
    cases n with
    | zero => rfl
    | succ n =>
      rw [entriesFrom, List.getElem?_cons_succ, List.getElem?_cons_succ, ih, start_succ,
        Nat.add_assoc revision, Nat.add_comm 1, Nat.add_assoc offset]

@[simp] theorem length_entriesFrom (inline : Bool) (revision offset : Nat)
    (revisions : List Stored) :
    (entriesFrom inline revision offset revisions).length = revisions.length := by
  induction revisions generalizing revision offset with
  | nil => rfl
  | cons stored rest ih => rw [entriesFrom, List.length_cons, ih, List.length_cons]

theorem writeData_eq {n : Nat} (found : revisions[n]? = some stored) :
    writeData revisions =
      writeData (revisions.take n) ++ (stored.chunk ++ writeData (revisions.drop (n + 1))) := by
  obtain ⟨known, same⟩ := List.getElem?_eq_some_iff.1 found
  rw [writeData, writeData, writeData, ← List.flatMap_cons, ← List.flatMap_append, ← same,
    List.getElem_cons_drop, List.take_append_drop]

theorem start_add_le {n : Nat} (found : revisions[n]? = some stored) :
    start revisions n + stored.chunk.length ≤ (writeData revisions).length := by
  rw [writeData_eq found, List.length_append, List.length_append, start]
  omega

/-- The chunk of a revision in the data file. -/
theorem chunk_writeData {n : Nat} (found : revisions[n]? = some stored) :
    ((writeData revisions).drop (start revisions n)).take stored.chunk.length = stored.chunk := by
  rw [writeData_eq found, start, List.drop_left' rfl, List.take_left' rfl]

end Index

end RevisionLog
