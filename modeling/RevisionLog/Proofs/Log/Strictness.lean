import RevisionLog.Proofs.Log.Deltas
import RevisionLog.Proofs.Log.WarmUp

/-!
# Strict compression only rejects

A log with strict compression (`Log.strict`) reads the same files as one without. The two part at a
chunk that starts with none of the known headers (`Log.chunk_strict`), and there the strict log
fails, with the header and the revision that has it. Otherwise they do the same, so their texts are
the same unless the strict log rejects a revision that the text is made from (`Log.rebuild_strict`,
by induction on the revision). Hence strictness never changes a content, and does nothing at all
where all chunks start with known headers (`Log.strictness_only_rejects`).
-/

namespace RevisionLog

namespace Outcome

variable {α β : Type} {excused : Failure → Prop}

/-- The outcomes are the same, unless the first is a failure that is excused. -/
def SameUnless (excused : Failure → Prop) (first second : Except Failure α) : Prop :=
  first = second ∨ ∃ failure, excused failure ∧ first = .error failure

theorem SameUnless.bind {first second : Except Failure α} {next next' : α → Except Failure β}
    (before : SameUnless excused first second)
    (behind : ∀ value, SameUnless excused (next value) (next' value)) :
    SameUnless excused (first >>= next) (second >>= next') := by
  obtain rfl | ⟨failure, excuse, rfl⟩ := before
  · cases first with
    | error failure => exact .inl rfl
    | ok value => exact behind value
  · exact .inr ⟨failure, excuse, rfl⟩

theorem SameUnless.mono {excused' : Failure → Prop} {first second : Except Failure α}
    (same : SameUnless excused first second)
    (weaker : ∀ ⦃failure⦄, excused failure → excused' failure) : SameUnless excused' first second :=
  same.imp_right fun ⟨failure, excuse, failed⟩ => ⟨failure, weaker excuse, failed⟩

end Outcome

namespace Log

open Outcome (SameUnless)

variable {log : Log} {disk : Disk} {files : Files} {revision : Nat} {record : Record}

/-- The first bytes of chunks that say how what follows is stored. -/
def headers : List UInt8 := [0x78, 0x75, 0]

/-- The log with strict compression. -/
def strict (log : Log) : Log := { log with strictCompression := true }

/-- The chunk of a revision starts with a byte. -/
def StartsWith (log : Log) (disk : Disk) (revision : Nat) (header : UInt8) : Prop :=
  ∃ index record chunk, log.openIndex disk = .ok index ∧ log.recordIn index revision = .ok record ∧
    log.HasChunk disk record chunk ∧ chunk.head? = some header

/-- The failure by which a strict log rejects a revision whose chunk starts with an unknown
header. -/
inductive Rejects (log : Log) (disk : Disk) (revision : Nat) : Failure → Prop
  | header {header : UInt8} (starts : log.StartsWith disk revision header)
      (unknown : header ∉ headers) :
      Rejects log disk revision (.unknownCompression log.contentFile revision header)

/-- The strict log reads a chunk in the same way, unless it rejects the revision. -/
theorem chunk_strict (opened : log.openFiles disk = .ok files)
    (found : log.recordIn files.index revision = .ok record) :
    SameUnless (log.Rejects disk revision) (log.strict.chunk files record)
      (log.chunk files record) := by
  have same : log.strict.storedChunk files record = log.storedChunk files record := rfl
  rw [chunk, chunk, same]
  cases stored : log.storedChunk files record with
  | error failure => exact .inl rfl
  | ok buffer =>
    dsimp only [Bind.bind, Except.bind]
    split
    · exact .inl rfl
    · exact .inl rfl
    · exact .inl rfl
    · exact .inl rfl
    · rename_i header compressed marked plain first
      obtain ⟨fits, start⟩ := fits_storedChunk (sound_of_openFiles opened) stored
      have there := (hasChunk_iff opened).2 ⟨buffer, stored, fits, start, rfl⟩
      rw [Buffer.first?_eq fits] at first
      have starts : log.StartsWith disk revision header :=
        ⟨files.index, record, buffer.slice, (openFiles_eq_ok.1 opened).1, found, there, first⟩
      have unknown : header ∉ headers := by
        simp only [headers, List.mem_cons, List.not_mem_nil, or_false]
        rintro (rfl | rfl | rfl)
        · exact compressed rfl
        · exact marked rfl
        · exact plain rfl
      refine .inr ⟨_, .header starts unknown, ?_⟩
      rw [revision_of_recordIn opened found]
      rfl

/-- **The strict log makes the same text of a revision**, unless it rejects one that the text is
made from. By induction on the revision. -/
theorem rebuild_strict (opened : log.openFiles disk = .ok files) (revision : Nat) :
    SameUnless
      (fun failure => ∃ other, log.Needs files revision other ∧ log.Rejects disk other failure)
      (log.strict.rebuild files revision) (log.rebuild files revision) := by
  induction revision using Nat.strongRecOn with
  | ind revision ih =>
    cases found : log.recordIn files.index revision with
    | error failure =>
      have found' : log.strict.recordIn files.index revision = .error failure := found
      rw [rebuild_of_error found, rebuild_of_error found']
      exact .inl rfl
    | ok record =>
      have found' : log.strict.recordIn files.index revision = .ok record := found
      have chunks : SameUnless
          (fun failure => ∃ other, log.Needs files revision other ∧ log.Rejects disk other failure)
          (log.strict.chunk files record) (log.chunk files record) :=
        (chunk_strict opened found).mono fun _ rejects => ⟨revision, .self revision, rejects⟩
      by_cases literal : record.isLiteral
      · rw [rebuild_of_literal found literal, rebuild_of_literal found' literal]
        exact chunks
      · by_cases earlier : 0 ≤ log.deltaParent record ∧ log.deltaParent record < revision
        · rw [rebuild_of_patch found literal earlier, rebuild_of_patch found' literal earlier]
          have before := ih (log.deltaParent record).toNat (by omega)
          refine (before.mono ?_).bind fun base => chunks.bind fun chunk => .inl rfl
          rintro failure ⟨other, needs, rejects⟩
          exact ⟨other, .parent found literal earlier needs, rejects⟩
        · rw [rebuild_of_later found literal earlier, rebuild_of_later found' literal earlier]
          exact .inl rfl

/-- The text of a revision is made from another one. -/
def ReliesOn (log : Log) (disk : Disk) (number : Revision) (other : Nat) : Prop :=
  ∃ files revision, log.openFiles disk = .ok files ∧ log.check number = .ok revision ∧
    log.Needs files revision other

theorem content_strict (log : Log) (disk : Disk) (number : Revision) :
    SameUnless
      (fun failure => ∃ other, log.ReliesOn disk number other ∧ log.Rejects disk other failure)
      (log.strict.content disk number) (log.content disk number) := by
  have checks : log.strict.check number = log.check number := rfl
  have opens : log.strict.openFiles disk = log.openFiles disk := rfl
  rw [content, content, checks, opens]
  cases checked : log.check number with
  | error failure => exact .inl rfl
  | ok revision =>
    cases opened : log.openFiles disk with
    | error failure => exact .inl rfl
    | ok files =>
      refine ((rebuild_strict opened revision).mono ?_).bind fun text => .inl rfl
      rintro failure ⟨other, needs, rejects⟩
      exact ⟨other, ⟨files, revision, opened, checked, needs⟩, rejects⟩

/-- A log that is opened with strict compression is the strict one of that opened without. -/
theorem log_eq_strict {before : Disk} {indexFile : String} {options : Options}
    {strict lenient : Handle}
    (opened : Handle.open before indexFile { options with strictCompression := true } = .ok strict)
    (opened' : Handle.open before indexFile { options with strictCompression := false } =
      .ok lenient) : strict.log before = (lenient.log before).strict := by
  rw [log_of_open opened, log_of_open opened']
  rfl

/-- Opening the files of a loaded log gives the log. -/
theorem Loaded.log_eq {indexFile : String} {options : Options} {handle : Handle}
    (loaded : log.Loaded disk) (opened : Handle.open disk indexFile options = .ok handle)
    (same : log.toLocation = .ofIndex indexFile options) : handle.log disk = log := by
  rw [log_of_open opened, ← same, ← loaded.outline]

/-- **Strict compression only rejects.** Let a log be opened with and without it. On any disk and
for any revision, a content of the strict one is that of the other. Where only the strict one fails,
it names a revision that the content is made from and the byte that its chunk starts with, which is
no known header. And where all chunks start with known ones, both answer the same, be it a content
or a failure. -/
theorem strictness_only_rejects {before : Disk} {indexFile : String} {options : Options}
    {strict lenient : Handle}
    (opened : Handle.open before indexFile { options with strictCompression := true } = .ok strict)
    (opened' : Handle.open before indexFile { options with strictCompression := false } =
      .ok lenient) (disk : Disk) (number : Revision) :
    let log := lenient.log before
    let answer := log.content disk number
    let strictAnswer := (strict.log before).content disk number
    (∀ text, strictAnswer = .ok text → answer = .ok text) ∧
      (∀ text failure, answer = .ok text → strictAnswer = .error failure →
        ∃ other header, log.ReliesOn disk number other ∧ log.StartsWith disk other header ∧
          header ∉ headers ∧ failure = .unknownCompression log.contentFile other header) ∧
      ((∀ other header, log.ReliesOn disk number other → log.StartsWith disk other header →
        header ∈ headers) → strictAnswer = answer) := by
  intro log answer strictAnswer
  have same := content_strict (lenient.log before) disk number
  rw [← log_eq_strict opened opened'] at same
  change SameUnless _ strictAnswer answer at same
  obtain same | ⟨failure, ⟨other, relies, rejects⟩, failed⟩ := same
  · rw [same]
    exact ⟨fun _ told => told, fun _ _ told failed => by simp [told] at failed, fun _ => rfl⟩
  · obtain @⟨header, starts, unknown⟩ := rejects
    rw [failed]
    refine ⟨nofun, fun text failure _ same => ?_, fun known => ?_⟩
    · exact ⟨other, header, relies, starts, unknown, (Except.error.inj same).symm⟩
    · exact absurd (known other header relies starts) unknown

/-- A text in full whose chunk does not say how it is stored, and a patch on it. -/
def bare : List Stored :=
  [.ofChunk 0 4 [0x55, 1, 2, 3], .ofChunk 0 4 (0x75 :: Patch.write [⟨1, 3, [9, 9]⟩])]

/-- The files of a log that holds the two. -/
def bareDisk : Disk := splitDisk bare

/-- The log with these files. -/
def bareLog : Log := splitLog bare

theorem loaded_bare : bareLog.Loaded bareDisk :=
  loaded_split (List.cons_ne_nil _ _) (by decide) (by decide)

theorem content_bare : bareLog.content bareDisk 1 = .ok [0x55, 9, 9, 3] := by cbv

theorem content_strict_bare : bareLog.strict.content bareDisk 1 =
    .error (.unknownCompression bareLog.contentFile 0 0x55) := by cbv

/-- A chunk that the one log takes for plain bytes is rejected by the other, and so is the patch on
what it holds. -/
theorem strictness_only_rejects_bare :
    let lenient := (Handle.ofIndex "a.i" {}).log bareDisk
    let strict := (Handle.ofIndex "a.i" { strictCompression := true }).log bareDisk
    lenient = bareLog ∧ lenient.content bareDisk 1 = .ok [0x55, 9, 9, 3] ∧
      strict.content bareDisk 1 = .error (.unknownCompression bareLog.contentFile 0 0x55) ∧
      bareLog.ReliesOn bareDisk 1 0 ∧ bareLog.StartsWith bareDisk 0 0x55 ∧ 0x55 ∉ headers := by
  have opened : Handle.open bareDisk "a.i" { ({} : Options) with strictCompression := true } =
      .ok (Handle.ofIndex "a.i" { strictCompression := true }) := rfl
  have opened' : Handle.open bareDisk "a.i" { ({} : Options) with strictCompression := false } =
      .ok (Handle.ofIndex "a.i" {}) := rfl
  have read := loaded_bare.log_eq opened' rfl
  have told := content_bare
  have failed := content_strict_bare
  rw [← read] at told
  rw [← read, ← log_eq_strict opened opened'] at failed
  obtain ⟨other, header, relies, starts, unknown, same⟩ :=
    (strictness_only_rejects opened opened' bareDisk 1).2.1 _ _ told failed
  injection same with _ revision byte
  subst revision byte
  rw [read] at failed relies starts
  exact ⟨read, told, failed, relies, starts, unknown⟩

end Log

end RevisionLog
