import RevisionLog.Proofs.Log.Loaded
import RevisionLog.Proofs.Log.Text

/-!
# Reading a log revision by revision

An iteration makes each text from what its visitor has left of the one before. If visitors are
`Visitor.Harmless`, that is, leave a reader of the same text, then every reader that is handed out
shows the text of its revision by definition (`Log.visitContents_yields`), by induction on
the revisions with the retained reader as the invariant. Where all texts are there, a visitor that
reads them gathers them in order (`Log.visitContents_gathering`).
-/

namespace RevisionLog

open Reader (Damaged Yields Retains)

namespace Reader

variable {text? : Option Bytes} {reader : Reader}

theorem Damaged.reset (h : Damaged reader) :
    ∃ moved, Reader.reset reader = (.ok (), moved) ∧ Damaged moved := by
  obtain ⟨ending⟩ := h
  rename_i inflater
  by_cases start : inflater.position = 0
  · rw [Reader.reset, seek_inflating_of_le (Nat.le_of_eq start), start]
    exact ⟨_, choose_inflating (Inflater.skip_of_le (Nat.zero_le _)), .inflating ending⟩
  · rw [Reader.reset, seek_inflating_of_lt (Nat.pos_of_ne_zero start)]
    exact ⟨_, choose_inflating (Inflater.skip_of_le (Nat.zero_le _)), .inflating ending⟩

/-- A text that has just been made can be read from the start. -/
theorem Yields.reset (h : Yields text? (some reader)) :
    ∃ moved, Reader.reset reader = (.ok (), moved) ∧ Yields text? (some moved) := by
  cases h with
  | text start => exact ⟨reader, start.reset, .text start⟩
  | damaged damaged =>
    obtain ⟨moved, run, damaged⟩ := damaged.reset
    exact ⟨moved, run, .damaged damaged⟩

end Reader

namespace Visitor

variable {σ : Type}

/-- Whatever text the visitor is given, it leaves a reader that still has it. -/
def Harmless (visitor : Visitor σ) : Prop :=
  ∀ (record : Record) (state : σ) {text? : Option Bytes} {reader : Reader},
    Yields text? (some reader) →
      Retains text? ((visitor.content record state).run reader).2

/-- The visitor that reads each text once to its end, and then decides whether to go on. -/
def reading (judge : Record → Answer → σ → Except String Unit × σ) : Visitor σ where
  record := fun record state => judge record (.ok .done) state
  content := fun record state => .ask .rest fun answer => .done (judge record answer state)

theorem answer_rest (reader : Reader) : Reader.answer reader .rest =
    ((Reader.rest reader).1.map Value.bytes, (Reader.rest reader).2) := by
  rw [Reader.answer, Reader.perform, Reader.bind_apply]
  split <;> simp_all <;> rfl

theorem run_reading (judge : Record → Answer → σ → Except String Unit × σ) (record : Record)
    (state : σ) (reader : Reader) : ((reading judge).content record state).run reader =
      (judge record ((Reader.rest reader).1.map Value.bytes) state, (Reader.rest reader).2) := by
  show (judge record (Reader.answer reader .rest).1 state, (Reader.answer reader .rest).2) = _
  rw [answer_rest]

theorem harmless_reading (judge : Record → Answer → σ → Except String Unit × σ) :
    (reading judge).Harmless := by
  intro record state text? reader start
  rw [run_reading]
  cases start with
  | text start =>
    obtain ⟨moved, run, there⟩ := start.rest
    rw [run]
    exact .text there
  | damaged damaged =>
    obtain ⟨fault, run⟩ := damaged.rest
    rw [run]
    exact .damaged damaged

/-- The visitor that reads each text to its end, gathers what it learns and never gives up. -/
def gathering (gather : Record → Answer → σ → σ) : Visitor σ :=
  reading fun record answer state => (.ok (), gather record answer state)

end Visitor

namespace Log

variable {log : Log} {disk : Disk} {files : Files} {revision : Nat} {record : Record}

/-! ## What is visited -/

/-- The record and the text of a revision, if the text can be had. -/
theorem readAfter_eq_ok {previous : Option (Nat × Reader)} {text : Reader} :
    log.readAfter files revision previous = .ok (record, text) ↔
      log.recordIn files.index revision = .ok record ∧
        log.contentAfter files record previous = .ok text := by
  rw [readAfter, Outcome.bind_eq_ok]
  refine ⟨?_, ?_⟩
  · rintro ⟨found, read, rest⟩
    obtain ⟨made, text, same⟩ := Outcome.bind_eq_ok.1 rest
    cases same
    exact ⟨read, text⟩
  · rintro ⟨read, made⟩
    refine ⟨record, read, Outcome.bind_eq_ok.2 ⟨text, made, rfl⟩⟩

/-- **Every reader that is handed out shows the text of its revision.** By induction on the
revisions; what is left of a revision is a reader of its text. -/
theorem visitContents_yields {σ : Type} {visitor : Visitor σ} (harmless : visitor.Harmless)
    (sound : files.Sound) (proper : log.Proper files.index) {first : Nat} {revisions : List Nat}
    (known : ∀ revision ∈ revisions, revision < log.count) {previous : Option (Nat × Reader)}
    (retained : log.Retained files previous) {state : σ} :
    ∀ visit ∈ (log.visitContents files visitor first revisions previous state).visits,
      ∃ revision ∈ revisions, first ≤ revision ∧
        log.recordIn files.index revision = .ok visit.record ∧
        ∃ reader, visit.text = some reader ∧ Yields (log.text? files revision) (some reader) := by
  induction revisions generalizing previous state with
  | nil => simp [visitContents, Run.stop]
  | cons revision revisions ih =>
    have here := known revision List.mem_cons_self
    have later : ∀ revision ∈ revisions, revision < log.count :=
      fun revision member => known revision (List.mem_cons_of_mem _ member)
    rw [visitContents]
    split
    · simp [Run.stop]
    · rename_i record text read
      obtain ⟨found, made⟩ := readAfter_eq_ok.1 read
      have yields := contentAfter_yields sound retained found here (proper here found)
      rw [made] at yields
      split
      · intro visit member
        obtain ⟨other, among, rest⟩ := ih later (retained_some yields.retains) visit member
        exact ⟨other, List.mem_cons_of_mem _ among, rest⟩
      · rename_i notBefore
        obtain ⟨handed, rewound, yields⟩ := yields.reset
        have left := harmless record state yields
        rw [rewound]
        dsimp only
        intro visit member
        rcases List.mem_cons.1 member with rfl | member
        · exact ⟨revision, List.mem_cons_self, Nat.le_of_not_lt notBefore, found, handed, rfl,
            yields⟩
        · split at member
          · cases member
          · rename_i run
            rw [run] at left
            obtain ⟨other, among, rest⟩ := ih later (retained_some left) visit member
            exact ⟨other, List.mem_cons_of_mem _ among, rest⟩

/-- A visit that gathers a text, after which the iteration goes on with what is left of the text. -/
theorem visitContents_gathering_cons {σ : Type} (gather : Record → Answer → σ → σ) {first : Nat}
    {revisions : List Nat} {previous : Option (Nat × Reader)} {state : σ} {text : Bytes}
    (reached : first ≤ revision) (found : log.recordIn files.index revision = .ok record)
    (yields : Yields (some text) (log.contentAfter files record previous).toOption) :
    ∃ visit left, Retains (some text) left ∧
      log.visitContents files (Visitor.gathering gather) first (revision :: revisions) previous
          state =
        .after visit (log.visitContents files (Visitor.gathering gather) first revisions
          (some (revision, left)) (gather record (.ok (.bytes text)) state)) := by
  obtain ⟨reader, made, start⟩ := yields.eq_ok
  obtain ⟨moved, run, there⟩ := start.rest
  have visited : ((Visitor.gathering gather).content record state).run reader =
      ((.ok (), gather record (.ok (.bytes text)) state), moved) := by
    rw [Visitor.gathering, Visitor.run_reading, run]
    rfl
  refine ⟨⟨record, reader⟩, moved, .text there, ?_⟩
  rw [visitContents, readAfter_eq_ok.2 ⟨found, made⟩]
  dsimp only
  rw [if_neg (Nat.not_lt.2 reached), start.reset]
  dsimp only
  rw [visited]

/-- An iteration that reads texts which are all there gathers them, by the same induction. -/
theorem visitContents_gathering {σ : Type} (gather : Record → Answer → σ → σ) (sound : files.Sound)
    (proper : log.Proper files.index) (records : Nat → Record) (texts : Nat → Bytes) {first : Nat}
    {revisions : List Nat} (known : ∀ revision ∈ revisions, revision < log.count ∧
      log.recordIn files.index revision = .ok (records revision) ∧
      log.text? files revision = some (texts revision))
    {previous : Option (Nat × Reader)} (retained : log.Retained files previous) {state : σ} :
    let run := log.visitContents files (Visitor.gathering gather) first revisions previous state
    run.result = .ok () ∧ run.state = (revisions.filter (first ≤ ·)).foldl
      (fun state revision => gather (records revision) (.ok (.bytes (texts revision))) state) state := by
  induction revisions generalizing previous state with
  | nil => exact ⟨rfl, rfl⟩
  | cons revision revisions ih =>
    obtain ⟨here, found, text⟩ := known revision List.mem_cons_self
    have later := fun other member => known other (List.mem_cons_of_mem _ member)
    have yields := contentAfter_yields sound retained found here (proper here found)
    rw [text] at yields
    by_cases before : revision < first
    · obtain ⟨reader, made, start⟩ := yields.eq_ok
      have retains : Retains (log.text? files revision) reader := by
        rw [text]
        exact .text start
      rw [visitContents, readAfter_eq_ok.2 ⟨found, made⟩]
      dsimp only
      rw [if_pos before, List.filter_cons_of_neg (by simpa using before)]
      exact ih later (retained_some retains)
    · have reached := Nat.le_of_not_lt before
      obtain ⟨visit, left, retains, run⟩ :=
        visitContents_gathering_cons gather reached found yields
      rw [run, List.filter_cons_of_pos (by simpa using reached)]
      rw [← text] at retains
      exact ih later (retained_some retains)

/-- The revisions of a range are ones that the log has. -/
theorem checkRange_eq_ok {start stop : Revision} {first last : Nat}
    (h : log.checkRange start stop = .ok (first, last)) : first ≤ last ∧ last < log.count := by
  rw [checkRange] at h
  split at h
  · cases h
  · rename_i low
    split at h
    · cases h
    · rename_i high
      cases h
      omega

/-- Reading starts at the first revision of the range or before it. -/
theorem Loaded.readFrom_le (loaded : log.Loaded disk) (known : revision < log.count) :
    log.readFrom revision ≤ revision := by
  obtain ⟨index, -, -, stand⟩ := loaded.index
  rw [readFrom]
  split
  · exact Nat.le_refl _
  · rw [List.getElem?_eq_getElem known]
    have base := stand.base_le (Nat.zero_le _) (List.getElem?_eq_getElem known)
    rwa [Nat.zero_add] at base

/-- A range inside the log is accepted. -/
theorem checkRange_of_le {start stop : Revision} {first last : Nat}
    (starts : start.resolve log.count = first) (stops : stop.resolve log.count = last)
    (le : first ≤ last) (inside : last < log.count) :
    log.checkRange start stop = .ok (first, last) := by
  rw [checkRange, starts, stops]
  simp only [Int.toNat_natCast]
  rw [if_neg (by omega), if_neg (by omega)]

/-- The part of a range that is not passed over. -/
theorem filter_range' {base first last : Nat} (early : base ≤ first) (le : first ≤ last) :
    (List.range' base (last + 1 - base)).filter (first ≤ ·) =
      List.range' first (last + 1 - first) := by
  have parts : List.range' base (last + 1 - base) =
      List.range' base (first - base) ++ List.range' first (last + 1 - first) := by
    have joined : List.range' base (first - base) ++
        List.range' (base + (first - base)) (last + 1 - first) =
          List.range' base (first - base + (last + 1 - first)) := List.range'_append_1
    rw [Nat.add_sub_cancel' early] at joined
    rw [joined]
    congr 1
    omega
  have passed : (List.range' base (first - base)).filter (first ≤ ·) = [] := by
    rw [List.filter_eq_nil_iff]
    intro n member
    rw [List.mem_range'_1] at member
    simp only [decide_eq_true_eq]
    omega
  have kept : (List.range' first (last + 1 - first)).filter (first ≤ ·) =
      List.range' first (last + 1 - first) := by
    rw [List.filter_eq_self]
    intro n member
    rw [List.mem_range'_1] at member
    exact decide_eq_true member.1
  rw [parts, List.filter_append, passed, kept, List.nil_append]

/-- An iteration over a range of the log visits the revisions in it. -/
theorem run_of_range {σ : Type} {visitor : Visitor σ} {start stop : Revision} {first last : Nat}
    {state : σ} (range : log.checkRange start stop = .ok (first, last))
    (opened : log.openFiles disk = .ok files) :
    log.run disk start stop true visitor state =
      log.visitContents files visitor first
        (List.range' (log.readFrom first) (last + 1 - log.readFrom first)) none state := by
  have inside := (checkRange_eq_ok range).2
  rw [run, if_neg (by omega), range, opened]
  rfl

/-- An iteration over one revision visits what is read from its base on. -/
theorem run_of_check {σ : Type} {visitor : Visitor σ} {number : Revision} {state : σ}
    (opened : log.openFiles disk = .ok files) (checked : log.check number = .ok revision) :
    log.run disk number number true visitor state =
      log.visitContents files visitor revision
        (List.range' (log.readFrom revision) (revision + 1 - log.readFrom revision)) none state := by
  obtain ⟨resolved, known⟩ := resolve_of_check checked
  exact run_of_range (checkRange_of_le resolved resolved (Nat.le_refl _) known) opened

theorem readFrom_of_general (general : log.isGeneralDelta) (revision : Nat) :
    log.readFrom revision = revision := by
  rw [readFrom, if_pos general]

end Log

end RevisionLog
