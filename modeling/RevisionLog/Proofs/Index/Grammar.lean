import RevisionLog.Proofs.Index.Places
import RevisionLog.Proofs.Index.Written

/-!
# The grammar of an index

`Outline.Grammar` says which byte strings are an index: they start with a header, and can be cut
into records, one behind the other up to the end, whose lengths and bases are possible. Reading is
a loop that is out of step with the records, because the offset field of the first one holds the
header and is read before the loop, and that of each other one at the end of the turn before. It
accepts this grammar and nothing else (`Outline.readIndex_grammar`).

There is at most one way to cut an index into records (`Outline.Grammar.unique`). So an index that
is cut off is an index still if it ends with one of its records, and is not otherwise
(`Outline.readIndex_take_iff`).
-/

namespace RevisionLog

variable {bytes : Bytes} {features : Features} {n : Nat}

/-! ## Headers -/

theorem Features.eq_bits_of_ofBits? {bits : UInt16} (found : ofBits? bits = some features) :
    bits = features.bits := by
  have known : ∀ number : Fin 4, (ofBits? (UInt16.ofNat number)).map Features.bits =
      some (UInt16.ofNat number) := by decide
  by_cases small : bits < 4
  · have same := known ⟨bits.toNat, UInt16.lt_iff_toNat_lt.1 small⟩
    rw [UInt16.ofNat_toNat, found] at same
    exact (Option.some.inj same).symm
  · rw [ofBits?, if_neg small] at found
    cases found

theorem Features.bits_injective {features' : Features}
    (same : features.bits.toUInt8 = features'.bits.toUInt8) : features = features' := by
  rcases features with ⟨_ | _, _ | _⟩ <;> rcases features' with ⟨_ | _, _ | _⟩ <;>
    first | rfl | cases same

/-- A word that stands for a header of the version that can be read is the one written for it. -/
theorem Header.parse_ng {word : Int32} {header : Header} (parsed : parse word = .ok header)
    (version : header.version = .ng) : word = header.word := by
  have small := word.toUInt32.toNat_lt
  rw [parse] at parsed
  split at parsed
  · obtain ⟨number, numbered, parsed⟩ := Outcome.bind_eq_ok.1 parsed
    obtain rfl := Except.ok.inj numbered
    split at parsed
    · cases parsed
    · dsimp only at parsed
      split at parsed
      · cases parsed
      · obtain rfl := Except.ok.inj parsed
        cases version
  · rename_i low
    obtain ⟨number, numbered, parsed⟩ := Outcome.bind_eq_ok.1 parsed
    obtain rfl := Except.ok.inj numbered
    split at parsed
    · cases parsed
    · rename_i features known
      obtain rfl := Except.ok.inj parsed
      have high : word.toUInt32.toNat / 65536 = features.bits.toNat := by
        rw [← Features.eq_bits_of_ofBits? known, UInt16.toNat_ofNat']
        omega
      have number : word.toUInt32.toNat = Version.ng.number + 65536 * features.bits.toNat := by
        rw [← high, Version.number]
        omega
      rw [Header.word, ← number, UInt32.ofNat_toNat, Int32.toInt32_toUInt32]
  · cases parsed

/-- The bytes of the header with some features. -/
theorem Header.ofInt32_word (features : Features) :
    Bytes.ofInt32 (Header.word ⟨.ng, features⟩) = [0, features.bits.toUInt8, 0, 1] := by
  rcases features with ⟨_ | _, _ | _⟩ <;> decide

/-- An index of at least four bytes starts with a header that can be read exactly if these are the
bytes of it. -/
theorem Header.parse_iff {header : Header} (room : 4 ≤ bytes.length) :
    Header.parse (bytes.word 0) = .ok header ∧ header.version = .ng ↔
      header = ⟨.ng, header.features⟩ ∧ bytes.take 4 = [0, header.features.bits.toUInt8, 0, 1] := by
  have start : Bytes.ofInt32 (bytes.word 0) = bytes.take 4 := by
    rw [Bytes.word, List.drop_zero]
    exact Bytes.ofInt32_int32 (List.length_take_of_le room)
  refine ⟨?_, ?_⟩
  · rintro ⟨parsed, version⟩
    have whole : header = ⟨.ng, header.features⟩ := by rw [← version]
    refine ⟨whole, ?_⟩
    rw [← start, Header.parse_ng parsed version, ← Header.ofInt32_word, ← whole]
  · rintro ⟨whole, first⟩
    have word : bytes.word 0 = header.word := by
      rw [Bytes.word, List.drop_zero, first, ← Header.ofInt32_word, Bytes.int32_ofInt32, ← whole]
    have version : header.version = .ng := by rw [whole]
    rw [word]
    exact ⟨Header.parse_word version, version⟩

/-! ## Fields -/

/-- The offset of a record is in the first six bytes of it. -/
theorem Record.ofIndex_offset {place : Nat} (room : place + Record.size ≤ bytes.length)
    (revision : Nat) : (Record.ofIndex bytes place revision).offset =
      if revision = 0 then 0 else Bytes.toNat ((bytes.drop place).take 6) := by
  have cut : (bytes.drop place).take 8 =
      (bytes.drop place).take 6 ++ ((bytes.drop place).drop 6).take 2 := by
    rw [← List.take_add]
  have width : (((bytes.drop place).drop 6).take 2).length = 2 := by
    rw [Record.size] at room
    rw [List.length_take, List.length_drop, List.length_drop]
    omega
  have width' : ((bytes.drop place).take 6).length ≤ 6 := List.length_take_le _ _
  have low := Bytes.toNat_lt (((bytes.drop place).drop 6).take 2)
  have high := Bytes.toNat_lt ((bytes.drop place).take 6)
  have bound : 256 ^ ((bytes.drop place).take 6).length ≤ 256 ^ 6 :=
    Nat.pow_le_pow_right (by decide) width'
  rw [width] at low
  rw [Record.ofIndex]
  dsimp only
  rw [Bytes.long, Bytes.uint64, UInt64.toNat_ofNat', cut, Bytes.toNat_append, width]
  congr 1
  omega

namespace Outline

/-! ## Indexes -/

/-- The bytes are an index with these features, and the records of its revisions start at these
positions, the last of which is the end of the index. There are no more records than revisions
that have a number. -/
structure Grammar (features : Features) (bytes : Bytes) (count : Nat) (position : Nat → Nat) :
    Prop where
  header : bytes.take 4 = [0, features.bits.toUInt8, 0, 1]
  some : 0 < count
  few : count ≤ 2 ^ 31
  first : position 0 = 0
  next : ∀ n < count, position (n + 1) = position n + Record.size +
    if features.inline then (Record.ofIndex bytes (position n) n).chunkLength.toInt.toNat else 0
  last : position count = bytes.length
  chunk : ∀ n < count, 0 ≤ (Record.ofIndex bytes (position n) n).chunkLength.toInt
  base : ∀ n < count, 0 ≤ (Record.ofIndex bytes (position n) n).base.toInt ∧
    (Record.ofIndex bytes (position n) n).base.toInt ≤ n

variable {inline : Bool} {count revision offset start : Nat} {position : Nat → Nat}
  {entries : List Entry}

namespace Grammar

/-- Each record has its room before the next one. -/
theorem room (grammar : Grammar features bytes count position) (known : n < count) :
    position n + Record.size ≤ position (n + 1) := by
  rw [grammar.next n known]
  exact Nat.le_add_right _ _

theorem mono (grammar : Grammar features bytes count position) {m : Nat} (le : n ≤ m)
    (known : m ≤ count) : position n ≤ position m := by
  induction m, le using Nat.le_induction with
  | base => exact Nat.le_refl _
  | succ m le ih =>
    have := grammar.room known
    exact Nat.le_trans (ih (Nat.le_of_succ_le known)) (by omega)

theorem lt_of_position_lt (grammar : Grammar features bytes count position) (known : n ≤ count)
    (inside : position n < bytes.length) : n < count := by
  refine Nat.lt_of_le_of_ne known fun same => ?_
  rw [same, grammar.last] at inside
  exact Nat.lt_irrefl _ inside

/-- Where an index and the start of it can both be cut into records, the records are the same. By
induction on the records of the shorter one. -/
theorem agree (grammar : Grammar features bytes count position) {features' : Features}
    {length count' : Nat} {position' : Nat → Nat} (short : length ≤ bytes.length)
    (other : Grammar features' (bytes.take length) count' position') :
    features' = features ∧ ∀ n ≤ count', n ≤ count ∧ position' n = position n := by
  have inside : (bytes.take length).length = length := List.length_take_of_le short
  have same : features' = features := by
    have first := other.room other.some
    have last := other.mono (show 0 + 1 ≤ count' from other.some) (Nat.le_refl _)
    have header := other.header
    rw [other.last, inside] at last
    rw [Record.size] at first
    rw [List.take_take, Nat.min_eq_left (by omega), grammar.header] at header
    exact (Features.bits_injective (List.cons.inj (List.cons.inj header).2).1).symm
  refine ⟨same, fun n known => ?_⟩
  subst same
  induction n with
  | zero => exact ⟨Nat.zero_le _, by rw [other.first, grammar.first]⟩
  | succ n ih =>
    obtain ⟨le, here⟩ := ih (Nat.le_of_succ_le known)
    have room := other.room known
    have last := other.mono known (Nat.le_refl _)
    rw [other.last, inside] at last
    rw [Record.size, here] at room
    have more := grammar.lt_of_position_lt le (by omega)
    have length : (Record.ofIndex (bytes.take length) (position n) n).chunkLength =
        (Record.ofIndex bytes (position n) n).chunkLength := Bytes.word_take bytes (by omega)
    refine ⟨more, ?_⟩
    rw [other.next n known, grammar.next n more, here, length]

/-- **There is only one way to cut an index into records.** -/
theorem unique (grammar : Grammar features bytes count position) {features' : Features}
    {count' : Nat} {position' : Nat → Nat} (other : Grammar features' bytes count' position') :
    features' = features ∧ count' = count ∧ ∀ n ≤ count, position' n = position n := by
  have whole : bytes.take bytes.length = bytes := List.take_length
  obtain ⟨same, forth⟩ := grammar.agree (Nat.le_refl _) (whole.symm ▸ other)
  obtain ⟨-, back⟩ := other.agree (Nat.le_refl _) (whole.symm ▸ grammar)
  exact ⟨same, Nat.le_antisymm (forth _ (Nat.le_refl _)).1 (back _ (Nat.le_refl _)).1,
    fun n known => (back n known).2.symm⟩

/-- The first records of an index are an index. -/
theorem take (grammar : Grammar features bytes count position) (some : 0 < n)
    (known : n ≤ count) : Grammar features (bytes.take (position n)) n position := by
  have inside := grammar.mono known (Nat.le_refl _)
  rw [grammar.last] at inside
  have start := grammar.mono (show 0 + 1 ≤ n from some) known
  have first := grammar.room grammar.some
  rw [Record.size] at first
  have words : ∀ m < n, ∀ offset, offset + 4 ≤ Record.size →
      Bytes.word (bytes.take (position n)) (position m + offset) =
        bytes.word (position m + offset) := by
    intro m earlier offset fits
    have room := grammar.room (Nat.lt_of_lt_of_le earlier known)
    have before := grammar.mono (show m + 1 ≤ n from earlier) known
    exact Bytes.word_take bytes (by omega)
  have chunk : ∀ m < n, (Record.ofIndex (bytes.take (position n)) (position m) m).chunkLength =
      (Record.ofIndex bytes (position m) m).chunkLength :=
    fun m earlier => words m earlier 8 (by decide)
  have base : ∀ m < n, (Record.ofIndex (bytes.take (position n)) (position m) m).base =
      (Record.ofIndex bytes (position m) m).base := fun m earlier => words m earlier 16 (by decide)
  refine ⟨?_, some, Nat.le_trans known grammar.few, grammar.first, fun m earlier => ?_,
    (List.length_take_of_le inside).symm, fun m earlier => ?_, fun m earlier => ?_⟩
  · rw [List.take_take, Nat.min_eq_left (by omega), grammar.header]
  · rw [chunk m earlier, grammar.next m (by omega)]
  · rw [chunk m earlier]
    exact grammar.chunk m (by omega)
  · rw [base m earlier]
    exact grammar.base m (by omega)

end Grammar

/-! ## Reading -/

namespace Grammar

/-- The positions are the places where the loop comes to. -/
theorem position_eq (grammar : Grammar features bytes count position) (known : n ≤ count) :
    position n = place features.inline bytes n := by
  induction n with
  | zero => exact grammar.first
  | succ n ih =>
    rw [grammar.next n known, ih (Nat.le_of_succ_le known), place_succ]
    rfl

/-- The records pass the checks. -/
theorem checked (grammar : Grammar features bytes count position) (known : n < count) :
    Checked features.inline bytes n (place features.inline bytes n) := by
  have few := grammar.few
  have inside := grammar.mono (show n + 1 ≤ count from known) (Nat.le_refl _)
  obtain ⟨base, earlier⟩ := grammar.base n known
  have chunk := grammar.chunk n known
  rw [grammar.position_eq known, grammar.last, place_succ] at inside
  rw [grammar.position_eq (Nat.le_of_lt known)] at base earlier chunk
  refine ⟨Int32.le_iff_toInt_le.2 chunk, Int32.le_iff_toInt_le.2 base, ?_, inside⟩
  rw [Int32.le_iff_toInt_le, Int32.toInt_ofNat_of_lt (by omega)]
  exact earlier

/-- The records from each on stand for entries, one for each record. By induction on the number of
records that follow. -/
theorem entries_from (grammar : Grammar features bytes count position) (rest : Nat)
    (whole : n + rest + 1 = count) (offset : Nat) :
    ∃ entries, Entries features.inline bytes n offset (place features.inline bytes n) entries ∧
      entries.length = rest + 1 := by
  induction rest generalizing n offset with
  | zero =>
    have final := grammar.last
    rw [grammar.position_eq (Nat.le_refl _), ← whole, place_succ] at final
    exact ⟨_, .last (grammar.checked (by omega)) final, rfl⟩
  | succ rest ih =>
    obtain ⟨entries, stand, length⟩ := ih (n := n + 1) (by omega)
      ((bytes.long (place features.inline bytes (n + 1))).toNat / 65536)
    rw [place_succ] at stand
    exact ⟨_, .more (grammar.checked (by omega)) stand, by rw [List.length_cons, length]⟩

end Grammar

/-- Behind the last record is the end of the index. -/
theorem Entries.end_eq (stand : Entries inline bytes revision offset start entries) :
    (behind inline bytes)^[entries.length] start = bytes.length := by
  induction stand with
  | last checked final => exact final
  | more checked next ih =>
    rw [List.length_cons, Function.iterate_succ_apply]
    exact ih

/-- What stands for entries is cut into records. -/
theorem Entries.grammar (stand : Entries features.inline bytes 0 0 0 entries)
    (header : bytes.take 4 = [0, features.bits.toUInt8, 0, 1]) :
    Grammar features bytes entries.length (place features.inline bytes) := by
  have few := stand.length_le (Nat.zero_le _)
  rw [Nat.zero_add] at few
  have recordAt : ∀ n < entries.length,
      0 ≤ (Outline.recordAt features.inline bytes n).chunkLength ∧
        0 ≤ (Outline.recordAt features.inline bytes n).base.toInt ∧
          (Outline.recordAt features.inline bytes n).base.toInt ≤ n :=
    fun n known => (stand.nth known).1.recordAt (by omega)
  have some : 0 < entries.length := by cases stand <;> exact Nat.succ_pos _
  exact ⟨header, some, few, rfl, fun n _ => place_succ, stand.end_eq,
    fun n known => Int32.le_iff_toInt_le.1 (recordAt n known).1, fun n known => (recordAt n known).2⟩

/-- An index is read exactly if it can be cut into records, which then stand for the entries. -/
theorem readIndex_eq_ok {header : Header} {after : Buffer} :
    readIndex (.ofBytes bytes) = .ok ((header, entries), after) ↔
      header = ⟨.ng, header.features⟩ ∧
        Grammar header.features bytes entries.length (place header.isInline bytes) ∧
        Entries header.isInline bytes 0 0 0 entries ∧ after = .whole bytes bytes.length := by
  rw [Buffer.ofBytes_eq_whole, readIndex_whole]
  refine ⟨?_, ?_⟩
  · rintro ⟨⟨parsed, version, stand⟩, rfl⟩
    have room := Nat.le_trans (le_behind _ _ _) stand.checked.room
    rw [Record.size] at room
    obtain ⟨whole, first⟩ := (Header.parse_iff (by omega)).1 ⟨parsed, version⟩
    exact ⟨whole, stand.grammar first, stand, rfl⟩
  · rintro ⟨whole, grammar, stand, rfl⟩
    have room := Nat.le_trans (le_behind _ _ _) stand.checked.room
    rw [Record.size] at room
    obtain ⟨parsed, version⟩ := (Header.parse_iff (by omega)).2 ⟨whole, grammar.header⟩
    exact ⟨⟨parsed, version, stand⟩, rfl⟩

/-- What is an index is read, with one entry for each record. -/
theorem Grammar.read (grammar : Grammar features bytes count position) :
    ∃ entries, readIndex (.ofBytes bytes) =
        .ok ((⟨.ng, features⟩, entries), .whole bytes bytes.length) ∧
      Entries features.inline bytes 0 0 0 entries ∧ entries.length = count := by
  have some := grammar.some
  obtain ⟨entries, stand, length⟩ := grammar.entries_from (n := 0) (count - 1) (by omega) 0
  refine ⟨entries, readIndex_eq_ok.2 ?_, stand, by omega⟩
  exact ⟨rfl, stand.grammar grammar.header, stand, rfl⟩

/-- **What is an index is read, and nothing else is.** There is one entry for each record. It holds
the base of the record and its offset as they are read by themselves, and in an inline index the
offset is moved on behind the records before it. -/
theorem readIndex_grammar (bytes : Bytes) :
    (∀ features count position, Grammar features bytes count position →
      ∃ entries, readIndex (.ofBytes bytes) =
          .ok ((⟨.ng, features⟩, entries), .whole bytes bytes.length) ∧
        entries.length = count ∧
        ∀ n < count, ∃ record entry,
          (Buffer.ofBytes bytes).readAt (position n) (Record.read n) = .ok record ∧
            entries[n]? = some entry ∧ (entry.base : Int) = record.base.toInt ∧
            entry.offset = record.offset + (if features.inline then Record.size * n else 0) ∧
            record.offset = if n = 0 then 0 else Bytes.toNat ((bytes.drop (position n)).take 6)) ∧
    ((∀ features count position, ¬Grammar features bytes count position) →
      ∃ fault, readIndex (.ofBytes bytes) = .error fault) := by
  refine ⟨fun features count position grammar => ?_, fun none => ?_⟩
  · obtain ⟨entries, read, stand, length⟩ := grammar.read
    refine ⟨entries, read, length, fun n known => ?_⟩
    obtain ⟨checked, found⟩ := stand.nth (show n < entries.length by omega)
    have room := Nat.le_trans (le_behind _ _ _) checked.room
    have base := (Int32.le_iff_toInt_le.1 checked.base : (0 : Int) ≤ _)
    rw [grammar.position_eq (Nat.le_of_lt known), Buffer.ofBytes_eq_whole]
    refine ⟨_, _, Record.readAt_whole.2 ⟨room, checked.chunk, rfl⟩, found,
      Int.toNat_of_nonneg base, rfl, Record.ofIndex_offset room n⟩
  · cases run : readIndex (.ofBytes bytes) with
    | error fault => exact ⟨fault, rfl⟩
    | ok read => exact absurd (readIndex_eq_ok.1 run).2.1 (none _ _ _)

/-- An inline index of two records. -/
def twoLiterals : Bytes :=
  Index.write ⟨.ng, ⟨true, false⟩⟩ [.ofChunk 0 1 [0x75, 7], .ofChunk 1 2 [0x75, 8, 9]]

set_option maxRecDepth 4000 in
theorem grammar_twoLiterals :
    Grammar ⟨true, false⟩ twoLiterals 2 fun | 0 => 0 | 1 => 66 | _ => 133 :=
  ⟨by decide, by decide, by decide, rfl, by decide, by decide, by decide, by decide⟩

/-- The two records are read, but not when the last byte is missing. -/
theorem readIndex_grammar_twoLiterals :
    (∃ entries, readIndex (.ofBytes twoLiterals) =
      .ok ((⟨.ng, ⟨true, false⟩⟩, entries), .whole twoLiterals 133) ∧ entries.length = 2) ∧
      ∃ fault, readIndex (.ofBytes (twoLiterals.take 132)) = .error fault := by
  obtain ⟨entries, read, length, -⟩ :=
    (readIndex_grammar twoLiterals).1 _ _ _ grammar_twoLiterals
  refine ⟨⟨entries, read, length⟩, (readIndex_grammar _).2 fun features count position other => ?_⟩
  obtain ⟨known, here⟩ := (grammar_twoLiterals.agree (Nat.le_succ 132) other).2 _ (Nat.le_refl _)
  have final : position count = 132 := other.last.trans rfl
  rw [final] at here
  obtain rfl | rfl | rfl : count = 0 ∨ count = 1 ∨ count = 2 := by omega
  all_goals cases here

/-- **An index that is cut off is read exactly if the cut is behind one of its records.** -/
theorem readIndex_take_iff (grammar : Grammar features bytes count position) {length : Nat}
    (short : length ≤ bytes.length) :
    (∃ read, readIndex (.ofBytes (bytes.take length)) = .ok read) ↔
      ∃ n, 0 < n ∧ n ≤ count ∧ position n = length := by
  refine ⟨?_, ?_⟩
  · rintro ⟨⟨⟨header, entries⟩, after⟩, run⟩
    have other := (readIndex_eq_ok.1 run).2.1
    obtain ⟨known, here⟩ := (grammar.agree short other).2 _ (Nat.le_refl _)
    refine ⟨_, other.some, known, ?_⟩
    rw [← here, other.last, List.length_take_of_le short]
  · rintro ⟨n, some, known, rfl⟩
    obtain ⟨_, read, -⟩ := (grammar.take some known).read
    exact ⟨_, read⟩

end Outline

end RevisionLog
