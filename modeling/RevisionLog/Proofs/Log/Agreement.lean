import Mathlib
import RevisionLog.Proofs.Log.Stored
import RevisionLog.Proofs.Log.Streaming

/-!
# Iterations and single questions

An iteration reads forward and reuses what its visitor has left of the revision before; a question
for the content of one revision walks back along its patches. Where the bases of the records are in
order, both give the same records and texts (`Log.run_eq_content`), and both fail to give a text for
the same revisions.
-/

namespace RevisionLog.Log

variable {log : Log} {disk : Disk}

/-- The visits with texts are those of some revisions in the range. -/
theorem visits_of_run {σ : Type} {visitor : Visitor σ} {start stop : Revision} {state : σ}
    {visit : Visit}
    (member : visit ∈ (log.run disk start stop true visitor state).visits) :
    ∃ first last files, log.checkRange start stop = .ok (first, last) ∧
      log.openFiles disk = .ok files ∧
      visit ∈ (log.visitContents files visitor first
        (List.range' (log.readFrom first) (last + 1 - log.readFrom first)) none state).visits := by
  rw [run] at member
  split at member
  · cases member
  · split at member
    · cases member
    · rename_i opened
      obtain ⟨range, checked, opened⟩ := Outcome.bind_eq_ok.1 opened
      obtain ⟨files, opened, same⟩ := Outcome.bind_eq_ok.1 opened
      cases same
      exact ⟨_, _, _, checked, opened, member⟩

/-- **An iteration agrees with asking for one revision after another.** Whatever range is read and
whatever was read before it, the visitor is given the record of each revision, and its reader gives
a text exactly if asking for the content does, and the same one. That the base of a revision is not
a later one is known of logs with a data file, because their outline is; of inline logs it has to be
said. -/
theorem run_eq_content {σ : Type} (loaded : log.Loaded disk)
    (bases : log.isInline → ∀ (number : Revision) (record : Record),
      log.record disk number = .ok record →
        0 ≤ record.base.toInt ∧ record.base.toInt ≤ record.revision)
    (judge : Record → Answer → σ → Except String Unit × σ) (start stop : Revision) (state : σ) :
    ∀ visit ∈ (log.run disk start stop true (Visitor.reading judge) state).visits,
      ∃ number : Revision, number.toInt = visit.record.revision ∧
        log.record disk number = .ok visit.record ∧
        ∃ reader, visit.text = some reader ∧
          ∀ text, (Reader.rest reader).1 = .ok text ↔ log.content disk number = .ok text := by
  intro visit member
  obtain ⟨first, last, files, range, opened, member⟩ := visits_of_run member
  obtain ⟨index, data⟩ := openFiles_eq_ok.1 opened
  obtain ⟨bytes, file, same⟩ := openIndex_eq_ok.1 index
  have few := loaded.count_le
  have inside := (checkRange_eq_ok range).2
  have proper : log.Proper files.index := by
    rw [same]
    refine proper_of_base fun revision record known found => ?_
    rw [← same] at found
    cases layout : log.isInline with
    | false => exact loaded.split layout index known found
    | true =>
      have asked := record_eq index (loaded.check known)
      rw [found] at asked
      have number := revision_of_record asked
      rw [loaded.check known] at number
      rw [Except.ok.inj number]
      exact bases layout _ record asked
  have known : ∀ revision ∈ List.range' (log.readFrom first) (last + 1 - log.readFrom first),
      revision < log.count := by
    intro revision among
    rw [List.mem_range'_1] at among
    omega
  obtain ⟨revision, among, -, found, reader, handed, yields⟩ :=
    visitContents_yields (Visitor.harmless_reading judge) (sound_of_openFiles opened) proper known
      retained_none visit member
  have here := known revision among
  have asked := record_eq index (loaded.check here)
  rw [found] at asked
  have number := revision_of_record asked
  rw [loaded.check here] at number
  refine ⟨Int32.ofNat revision, ?_, asked, reader, handed, ?_⟩
  · rw [← Except.ok.inj number]
    exact Int32.toInt_ofNat_of_lt (by omega)
  · intro text
    have streamed := yields.bind_rest
    have direct := toOption_content (loaded.check here) opened
    rw [← Outcome.toOption_eq_some, ← Outcome.toOption_eq_some, direct, ← streamed]
    rfl

/-- Both revisions of a log with a patch are visited, and the iteration agrees with the contents. -/
theorem run_eq_content_pair :
    (pairLog.run pairDisk 0 1 true (Visitor.reading fun _ _ state => (.ok (), state)) ()).visits.length
        = 2 ∧
      ∀ visit ∈ (pairLog.run pairDisk 0 1 true
          (Visitor.reading fun _ _ state => (.ok (), state)) ()).visits,
        ∃ number : Revision, number.toInt = visit.record.revision ∧
          pairLog.record pairDisk number = .ok visit.record ∧
          ∃ reader, visit.text = some reader ∧
            ∀ text, (Reader.rest reader).1 = .ok text ↔ pairLog.content pairDisk number = .ok text :=
  ⟨by cbv, run_eq_content loaded_pair (fun inline => nomatch inline) _ 0 1 ()⟩

end RevisionLog.Log
