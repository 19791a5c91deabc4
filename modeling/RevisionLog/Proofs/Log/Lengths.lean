import Mathlib
import RevisionLog.FileLog
import RevisionLog.Proofs.Log.Deltas
import RevisionLog.Proofs.Log.Records

/-!
# Recorded lengths

The record of a revision tells the length of its text. A patch is applied only if it makes a text of
that length (`Log.length_of_patched?`), but a full text is what its chunk decodes to, and nothing
compares the two. So the recorded length is that of the text exactly if the revision is a patch or
its chunk decodes to as many bytes (`FileLog.length_eq_iff`), and a damaged index can tell any other
length of a full text (`FileLog.overstated_length`).
-/

namespace RevisionLog

namespace Log

variable {log : Log} {files : Files} {revision : Nat} {record : Record} {text : Bytes}

/-- A patch makes a text of the recorded length. -/
theorem length_of_patched? {origin : Bytes} (made : log.patched? files record origin = some text)
    (known : record.textLength ≠ Patch.unknownLength) :
    (text.length : Int) = record.textLength.toInt := by
  obtain ⟨patch, -, applied⟩ := Option.bind_eq_some_iff.1 made
  rw [Patch.applied?] at applied
  split at applied
  · rename_i proper
    obtain rfl := Option.some.inj applied
    exact (proper.2.resolve_left known).symm
  · cases applied

/-- A text is what the chunk of its record decodes to, or what a patch makes of another text. -/
theorem text?_eq_some_cases (told : log.text? files revision = some text) :
    ∃ record, log.recordIn files.index revision = .ok record ∧
      (record.isLiteral ∧ log.decoded? files record = some text ∨
        ¬record.isLiteral ∧ ∃ origin, log.patched? files record origin = some text) := by
  cases found : log.recordIn files.index revision with
  | error failure =>
    rw [text?, found] at told
    cases told
  | ok record =>
    refine ⟨record, rfl, ?_⟩
    by_cases literal : record.isLiteral
    · rw [text?_of_literal found literal] at told
      exact .inl ⟨literal, told⟩
    · by_cases earlier : 0 ≤ log.deltaParent record ∧ log.deltaParent record < revision
      · rw [text?_of_patch found literal earlier] at told
        obtain ⟨origin, -, made⟩ := Option.bind_eq_some_iff.1 told
        exact .inr ⟨literal, origin, made⟩
      · rw [text?, found] at told
        simp [literal, earlier] at told

/-- What the content of a revision is made from. -/
theorem content_eq_ok_cases {disk : Disk} {number : Revision}
    (told : log.content disk number = .ok text) :
    ∃ record, log.record disk number = .ok record ∧
      (record.textLength ≠ Patch.unknownLength → ¬record.isLiteral →
        (text.length : Int) = record.textLength.toInt) ∧
      (record.isLiteral → ∀ payload, log.HasPayload disk record payload ↔ payload = text) := by
  obtain ⟨revision, checked, rest⟩ := Outcome.bind_eq_ok.1 told
  obtain ⟨files, opened, -⟩ := Outcome.bind_eq_ok.1 rest
  have text? : log.text? files revision = some text := by
    rw [← toOption_content checked opened, told]
    rfl
  obtain ⟨record, found, made⟩ := text?_eq_some_cases text?
  refine ⟨record, ?_, fun known patch => ?_, fun literal payload => ?_⟩
  · rw [record_eq (openFiles_eq_ok.1 opened).1 checked, found]
  · obtain ⟨literal, -⟩ | ⟨-, origin, made⟩ := made
    · exact absurd literal patch
    · exact length_of_patched? made known
  · obtain ⟨-, decoded⟩ | ⟨patch, -⟩ := made
    · rw [← decoded?_eq_some_iff opened, decoded, Option.some.injEq, eq_comm]
    · exact absurd literal patch

end Log

namespace FileLog

variable {file : FileLog} {disk : Disk} {number : Revision}

/-- The length of the text with a node id is the recorded length of the revision that is found. -/
theorem length_of_revision? {node : NodeId} (found : file.revision? disk node = .ok (some number)) :
    file.length disk node = file.textLength disk number := by
  rw [FileLog.length, found]
  rfl

/-- **When the recorded length is the length of the text.** Whatever the files hold, if a question
for the content of a revision succeeds and one for its length gives a number, be it asked by
revision or by node id, then this is the length of the content exactly if the revision is a patch,
or its chunk decodes to that many bytes. -/
theorem length_eq_iff {text : Bytes} {length : Int32}
    (told : file.toLog.content disk number = .ok text)
    (recorded : file.textLength disk number = .ok length ∨
      ∃ node, file.revision? disk node = .ok (some number) ∧ file.length disk node = .ok length)
    (known : length ≠ Patch.unknownLength) :
    ∃ record, file.record disk number = .ok record ∧
      ((text.length : Int) = length.toInt ↔
        (record.isLiteral → ∀ payload, file.HasPayload disk record payload →
          (payload.length : Int) = length.toInt)) := by
  obtain ⟨record, found, patched, full⟩ := Log.content_eq_ok_cases told
  have same : record.textLength = length := by
    have field : file.textLength disk number = .ok length := by
      obtain field | ⟨node, revision, field⟩ := recorded
      · exact field
      · rwa [length_of_revision? revision] at field
    exact Except.ok.inj ((Log.textLength_of_record found).symm.trans field)
  subst same
  refine ⟨record, found, fun equal literal payload stored => ?_, fun stored => ?_⟩
  · rwa [(full literal payload).1 stored]
  · by_cases literal : record.isLiteral
    · exact stored literal text ((full literal text).2 rfl)
    · exact patched known literal

set_option maxRecDepth 4000 in
/-- The second revision of the pair is a patch, so that its recorded length is that of its text. -/
theorem length_eq_iff_pair : let file : FileLog := ⟨Log.pairLog, "a"⟩
    file.toLog.content Log.pairDisk 1 = .ok [1, 9, 9, 3] ∧
      file.textLength Log.pairDisk 1 = .ok 4 ∧
      ∃ record, file.record Log.pairDisk 1 = .ok record ∧ ¬record.isLiteral ∧
        (([1, 9, 9, 3] : Bytes).length : Int) = (4 : Int32).toInt := by
  intro file
  have told : file.toLog.content Log.pairDisk 1 = .ok [1, 9, 9, 3] := by cbv
  have read : file.record Log.pairDisk 1 = .ok (Log.pair[1].record 1 4) := by
    have index : Log.pairDisk "a.i" = .ok (Index.write {} Log.pair) := rfl
    obtain ⟨files, opened, holds⟩ := Log.holds_of_disk (.ofIndex "a.i" {}) index fun _ => rfl
    have checked : Log.pairLog.check 1 = .ok 1 := Log.loaded_pair.check (by decide)
    exact (Log.record_eq (Log.openFiles_eq_ok.1 opened).1 checked).trans
      (holds.recordIn_eq Log.sound_pair (by decide) rfl)
  have recorded : file.textLength Log.pairDisk 1 = .ok 4 := Log.textLength_of_record read
  obtain ⟨record, found, equal⟩ := length_eq_iff told (.inl recorded) (by decide)
  have patch : ¬record.isLiteral := by
    rw [found] at read
    rw [Except.ok.inj read]
    decide
  exact ⟨told, recorded, record, found, patch, equal.2 fun literal => absurd literal patch⟩

/-! ## A length that is too large -/

/-- A full text of three bytes whose record tells five. -/
def overstated : List Stored := [.ofChunk 0 5 [0x75, 1, 2, 3]]

theorem sound_overstated : Index.Sound 0 0 overstated := by decide

/-- The text of three bytes is returned, and its length is told as five, also by node id. -/
theorem overstated_length :
    let file : FileLog := ⟨Log.splitLog overstated, "a"⟩
    let disk := Log.splitDisk overstated
    file.Loaded disk ∧ file.toLog.content disk 0 = .ok [1, 2, 3] ∧ file.textLength disk 0 = .ok 5 ∧
      file.length disk .null = .ok 5 := by
  have loaded := Log.loaded_split (List.cons_ne_nil _ _) (by decide) sound_overstated
  have content := Log.content_split (by decide) sound_overstated (n := 0) rfl rfl .marked
  exact ⟨loaded, content, by cbv, by cbv⟩

end FileLog

end RevisionLog
