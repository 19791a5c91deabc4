import Mathlib
import RevisionLog.Proofs.Log.Failures

/-!
# Looking up ids

A lookup by id does not decode records. It compares twenty bytes of each, in the order of the
revisions, and answers a reserved number if no bytes are those of the id. Where all records can be
had, this is the first revision whose record has the id, whichever layout the log has
(`Log.find_of_records`), and the questions of a file log for the revision and for the length of its
text follow suit (`FileLog.lookup_first`).

The number of revisions has to be a word for that. An index may have as many records as there are
numbers for, and then a lookup looks at none of them (`FileLog.lookup_misses_full`).
-/

namespace RevisionLog

variable {disk : Disk} {records : Nat → Record} {node : NodeId}

/-- No revision of a log has the reserved number. -/
theorem Revision.ofNat_ne_bad {n : Nat} (small : n < 2 ^ 31) : Int32.ofNat n ≠ bad := by
  intro same
  have value := Int32.toInt_ofNat_of_lt small
  rw [same] at value
  have : Revision.bad.toInt = -2 ^ 31 := rfl
  omega

/-- The revisions of a log whose records have an id. -/
def Log.Holders (log : Log) (records : Nat → Record) (node : NodeId) : Set Nat :=
  {n | n < log.count ∧ (records n).node = node}

namespace Log

variable {log : Log} {n : Nat}

/-- **A lookup gives the first revision whose record has the id**, if it looks at all of them. -/
theorem find_of_records (few : log.count < 2 ^ 31)
    (found : ∀ n < log.count, log.record disk (Int32.ofNat n) = .ok (records n)) (node : NodeId) :
    log.find disk node = .ok
      (((List.range log.count).find? fun n => (records n).node = node).elim .bad Int32.ofNat) := by
  by_cases empty : log.count = 0
  · rw [find, if_pos empty, empty]
    rfl
  · obtain ⟨_, -, rest⟩ := Outcome.bind_eq_ok.1 (found 0 (Nat.pos_of_ne_zero empty))
    obtain ⟨index, opened, -⟩ := Outcome.bind_eq_ok.1 rest
    obtain ⟨bytes, -, rfl⟩ := openIndex_eq_ok.1 opened
    rw [find_eq node empty opened, searched_eq few]
    refine findIn_of_records node fun n among => ?_
    have known := List.mem_range.1 among
    rw [← record_eq opened (check_ofNat (Nat.le_of_lt few) known)]
    exact found n known

theorem find?_eq_some_iff :
    ((List.range log.count).find? fun n => (records n).node = node) = some n ↔
      IsLeast (log.Holders records node) n := by
  simp only [List.find?_range_eq_some, decide_eq_true_eq, List.mem_range, Bool.not_eq_true',
    decide_eq_false_iff_not]
  constructor
  · rintro ⟨same, known, before⟩
    exact ⟨⟨known, same⟩, fun other holds => not_lt.1 fun earlier => before other earlier holds.2⟩
  · rintro ⟨⟨known, same⟩, least⟩
    refine ⟨same, known, fun other earlier holds => ?_⟩
    exact absurd (least ⟨earlier.trans known, holds⟩) (not_le.2 earlier)

theorem find?_eq_none_iff :
    ((List.range log.count).find? fun n => (records n).node = node) = none ↔
      log.Holders records node = ∅ := by
  simp [Holders, Set.eq_empty_iff_forall_notMem]

end Log

namespace FileLog

variable {file : FileLog}

theorem revision?_of_find {number : Revision} (found : file.find disk node = .ok number)
    (there : number ≠ .bad) : file.revision? disk node = .ok (some number) := by
  rw [revision?, found]
  show (Except.ok (if number = .bad then none else some number) : Except Failure _) = _
  rw [if_neg there]

/-- The lookups of an id give the first revision whose record has it, and nothing else. -/
structure FindsFirst (file : FileLog) (disk : Disk) (records : Nat → Record) (node : NodeId) :
    Prop where
  first : ∀ n, IsLeast (file.Holders records node) n → file.find disk node = .ok (Int32.ofNat n) ∧
    file.revision? disk node = .ok (some (Int32.ofNat n)) ∧
      file.length disk node = .ok (records n).textLength
  none : file.Holders records node = ∅ → file.Misses disk node
  bad_iff : file.find disk node = .ok .bad ↔ file.Holders records node = ∅

theorem findsFirst_of_records (few : file.count < 2 ^ 31)
    (found : ∀ n < file.count, file.record disk (Int32.ofNat n) = .ok (records n))
    (node : NodeId) : file.FindsFirst disk records node := by
  have answer := Log.find_of_records few found node
  have least : ∀ n, IsLeast (file.Holders records node) n →
      file.find disk node = .ok (Int32.ofNat n) ∧ Int32.ofNat n ≠ Revision.bad := by
    intro n first
    rw [answer, Log.find?_eq_some_iff.2 first]
    exact ⟨rfl, Revision.ofNat_ne_bad (first.1.1.trans few)⟩
  have nothing : file.Holders records node = ∅ → file.find disk node = .ok .bad := by
    intro none
    rw [answer, Log.find?_eq_none_iff.2 none]
    rfl
  refine ⟨fun n first => ?_, fun none => misses_of_find (nothing none), fun absent => ?_, nothing⟩
  · obtain ⟨there, real⟩ := least n first
    refine ⟨there, revision?_of_find there real, ?_⟩
    rw [length_of_find there real]
    exact Log.textLength_of_record (found n first.1.1)
  · cases first : (List.range file.count).find? fun n => (records n).node = node with
    | none => exact Log.find?_eq_none_iff.1 first
    | some n =>
      obtain ⟨there, real⟩ := least n (Log.find?_eq_some_iff.1 first)
      exact absurd (Except.ok.inj (there.symm.trans absent)) real

/-- **A lookup finds the first match and nothing else**, unless there is no word for the number of
revisions. If all records of a log can be had by now, then a lookup gives the least revision whose
record has the id, with the length of its text, and the reserved number exactly if there is none. In
a log of as many revisions as there are numbers for it gives the reserved number for every id. -/
theorem lookup_first {before : Disk} (loaded : file.Loaded before)
    (found : ∀ n < file.count, file.record disk (Int32.ofNat n) = .ok (records n))
    (node : NodeId) :
    file.count < 2 ^ 31 ∧ file.FindsFirst disk records node ∨
      file.count = 2 ^ 31 ∧ file.Misses disk node := by
  rcases Nat.lt_or_eq_of_le loaded.count_le with few | full
  · exact .inl ⟨few, findsFirst_of_records few found node⟩
  · obtain ⟨_, -, rest⟩ := Outcome.bind_eq_ok.1 (found 0 (by omega))
    obtain ⟨index, opened, -⟩ := Outcome.bind_eq_ok.1 rest
    exact .inr ⟨full, misses_of_find (Log.find_of_full node full opened)⟩

/-- The records of the pair. -/
def pairRecords (n : Nat) : Record :=
  (Log.pair.getD n (.ofChunk 0 0 [])).record n (Index.start Log.pair n)

/-- Both records of the pair have the same id, and the first is found. -/
theorem lookup_first_pair :
    let file : FileLog := ⟨Log.pairLog, "a"⟩
    (∀ n < file.count, file.record Log.pairDisk (Int32.ofNat n) = .ok (pairRecords n)) ∧
      (∀ n < file.count, n ∈ file.Holders pairRecords .null) ∧
      file.find Log.pairDisk .null = .ok 0 ∧ file.revision? Log.pairDisk .null = .ok (some 0) ∧
        file.length Log.pairDisk .null = .ok 3 := by
  intro file
  have cases : ∀ n < file.count, n = 0 ∨ n = 1 := fun n known => by
    have known : n < 2 := known
    omega
  have found : ∀ n < file.count,
      file.record Log.pairDisk (Int32.ofNat n) = .ok (pairRecords n) := by
    intro n known
    obtain rfl | rfl := cases n known
    · exact Log.record_split (by decide) Log.sound_pair (show Log.pair[0]? = some _ from rfl)
    · exact Log.record_split (by decide) Log.sound_pair (show Log.pair[1]? = some _ from rfl)
  have holds : ∀ n < file.count, n ∈ file.Holders pairRecords .null := by
    intro n known
    obtain rfl | rfl := cases n known
    · exact ⟨known, rfl⟩
    · exact ⟨known, rfl⟩
  have loaded : file.Loaded Log.pairDisk := Log.loaded_pair
  have first : IsLeast (file.Holders pairRecords .null) 0 :=
    ⟨holds 0 (by decide), fun n _ => Nat.zero_le n⟩
  obtain ⟨-, finds⟩ := (lookup_first loaded found .null).resolve_right fun full =>
    absurd full.1 (by decide)
  exact ⟨found, holds, finds.first 0 first⟩

/-- As many revisions as there are numbers for all have the null id, and a lookup of it finds
nothing. -/
theorem lookup_misses_full :
    let file : FileLog := ⟨Log.splitLog (Log.crowd (2 ^ 31)), "a"⟩
    let disk := Log.splitDisk (Log.crowd (2 ^ 31))
    file.Loaded disk ∧
      (∀ n < file.count, ∃ record, file.record disk (Int32.ofNat n) = .ok record ∧
        record.node = .null) ∧
      file.count = 2 ^ 31 ∧ file.Misses disk .null := by
  have count := Log.count_crowd (2 ^ 31)
  refine ⟨Log.loaded_crowd (by decide) (Nat.le_refl _), fun n known => ?_, count,
    misses_of_full (accessible_split _) count .null⟩
  exact Log.node_crowd (Nat.le_refl _) (Nat.lt_of_lt_of_eq known count)

end FileLog

end RevisionLog
