import RevisionLog.Proofs.Log.Loaded

/-!
# Parts of records

The questions for a single length and the search for a node id do not decode records: they read a
few bytes at a fixed distance from where a record starts. Where the record can be had, these are its
fields (`Log.chunkLength_of_record`, `Log.textLength_of_record`), and a search finds the first record
with the id (`Log.findIn_of_records`).
-/

namespace RevisionLog

/-- The bytes of an id make the id. -/
theorem NodeId.bytes_ofBytes {bytes : Bytes} (length : bytes.length = 20) :
    ((NodeId.ofBytes bytes).toOption.getD .null).bytes = bytes := by
  rw [NodeId.ofBytes, dif_pos length]
  rfl

theorem NodeId.isBytes_iff {node other : NodeId} : node.isBytes other.bytes ↔ other = node := by
  rw [NodeId.isBytes, decide_eq_true_eq]
  cases node
  cases other
  rw [NodeId.mk.injEq]
  exact eq_comm

namespace Log

variable {log : Log} {disk : Disk} {index : Bytes} {cursor revision : Nat} {record : Record}
  {number : Revision}

/-- Every word of a record that can be had can be read. -/
theorem wordAt_of_record (found : log.recordIn (.whole index cursor) revision = .ok record)
    {offset : Nat} (inside : offset + 4 ≤ Record.size) :
    (Buffer.whole index cursor).readAt (log.recordPosition revision + offset) Buffer.int32 =
      .ok (index.word (log.recordPosition revision + offset)) := by
  obtain ⟨room, -, -⟩ := recordIn_eq_ok.1 found
  exact Buffer.readAt_whole.2
    ⟨by omega, _, Buffer.int32_whole.2 ⟨by omega, rfl, rfl⟩⟩

theorem chunkLengthAt_of_record
    (found : log.recordIn (.whole index cursor) revision = .ok record) :
    (Buffer.whole index cursor).readAt (log.recordPosition revision + 8) Buffer.int32 =
      .ok record.chunkLength := by
  rw [wordAt_of_record found (by decide), (recordIn_eq_ok.1 found).2.2]
  rfl

theorem textLengthAt_of_record
    (found : log.recordIn (.whole index cursor) revision = .ok record) :
    (Buffer.whole index cursor).readAt (log.recordPosition revision + 12) Buffer.int32 =
      .ok record.textLength := by
  rw [wordAt_of_record found (by decide), (recordIn_eq_ok.1 found).2.2]
  rfl

/-- The id of a record that can be had can be read. -/
theorem nodeAt_of_record (found : log.recordIn (.whole index cursor) revision = .ok record) :
    (Buffer.whole index cursor).readAt (log.recordPosition revision + 32) (Buffer.read 20) =
      .ok record.node.bytes := by
  obtain ⟨room, -, same⟩ := recordIn_eq_ok.1 found
  rw [Record.size] at room
  have length : ((index.drop (log.recordPosition revision + 32)).take 20).length = 20 := by
    rw [List.length_take, List.length_drop]
    omega
  have bytes : record.node.bytes = (index.drop (log.recordPosition revision + 32)).take 20 := by
    rw [same]
    exact NodeId.bytes_ofBytes length
  rw [bytes]
  exact Buffer.readAt_whole.2
    ⟨by omega, _, (Buffer.read_whole (by decide)).2 ⟨by omega, rfl, rfl⟩⟩

/-- A question for a word of a record that can be had reads the record's index. -/
theorem field_of_record (found : log.record disk number = .ok record) :
    ∃ index revision, log.recordIn (.whole index 0) revision = .ok record ∧
      ∀ offset, log.field disk number offset =
        ((Buffer.whole index 0).readAt (log.recordPosition revision + offset) Buffer.int32).mapError
          (.file log.indexFile (.readRecord revision)) := by
  obtain ⟨revision, checked, found⟩ := Outcome.bind_eq_ok.1 found
  obtain ⟨opened, open_, found⟩ := Outcome.bind_eq_ok.1 found
  obtain ⟨index, -, rfl⟩ := openIndex_eq_ok.1 open_
  refine ⟨index, revision, found, fun offset => ?_⟩
  rw [field, checked]
  show (log.openIndex disk >>= fun index => _) = _
  rw [open_]
  rfl

/-- The length of a chunk is that of its record. -/
theorem chunkLength_of_record (found : log.record disk number = .ok record) :
    log.chunkLength disk number = .ok record.chunkLength := by
  obtain ⟨index, revision, there, field⟩ := field_of_record found
  rw [chunkLength, field, chunkLengthAt_of_record there]
  rfl

/-- The recorded length of a text is that of its record. -/
theorem textLength_of_record (found : log.record disk number = .ok record) :
    log.textLength disk number = .ok record.textLength := by
  obtain ⟨index, revision, there, field⟩ := field_of_record found
  rw [textLength, field, textLengthAt_of_record there]
  rfl

/-- **A search finds the first of some revisions whose record has the id**, if their records can be
had. By induction on the revisions. -/
theorem findIn_of_records {records : Nat → Record} (node : NodeId) {revisions : List Nat}
    (found : ∀ revision ∈ revisions,
      log.recordIn (.whole index cursor) revision = .ok (records revision)) :
    log.findIn (.whole index cursor) node revisions =
      .ok ((revisions.find? fun revision => (records revision).node = node).elim .bad
        Int32.ofNat) := by
  induction revisions with
  | nil => rfl
  | cons revision revisions ih =>
    have here := found revision List.mem_cons_self
    have later := ih fun other member => found other (List.mem_cons_of_mem _ member)
    rw [findIn, nodeAt_of_record here]
    show (if node.isBytes (records revision).node.bytes then _ else _) = _
    by_cases same : (records revision).node = node
    · rw [if_pos (NodeId.isBytes_iff.2 same), List.find?_cons_of_pos (by simpa using same)]
      rfl
    · rw [if_neg (mt NodeId.isBytes_iff.1 same), List.find?_cons_of_neg (by simpa using same),
        later]

theorem find_eq {opened : Buffer} (node : NodeId) (some : log.count ≠ 0)
    (index : log.openIndex disk = .ok opened) :
    log.find disk node = log.findIn opened node log.searched := by
  rw [find, if_neg some, index]
  rfl

/-- A search among as many revisions as there are numbers for finds nothing. -/
theorem find_of_full {opened : Buffer} (node : NodeId) (full : log.count = 2 ^ 31)
    (index : log.openIndex disk = .ok opened) : log.find disk node = .ok .bad := by
  rw [find_eq node (by omega) index, searched_of_full full]
  rfl

end Log

end RevisionLog
