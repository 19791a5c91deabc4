import RevisionLog.Proofs.Index.Places
import RevisionLog.Proofs.Log.Stored
import RevisionLog.Proofs.Log.Streaming

/-!
# What is read before the first visit

The text of a revision is made from the revisions that it `Log.Needs`: itself, its delta parent, the
delta parent of that, and so on back to a full text. In a log without general deltas an iteration
does not look for these. It reads every revision from the base of the first one on, and the base may
lie before the full text.

What is read there goes wrong exactly if it cannot be rebuilt (`Log.visitContents_before_ok`,
`Log.visitContents_before_error`), whatever was left of the revision before it. So where a question
for the content of a revision succeeds, an iteration over it does the same exactly if all that is
read without need can be rebuilt (`Log.iterate_eq_iff`). It need not be so: an iteration can fail
because of damage that the revision has nothing to do with (`Log.needless_failure`).
-/

namespace RevisionLog.Log

variable {log : Log} {disk : Disk} {files : Files} {revision other : Nat} {record : Record}
  {previous : Option (Nat × Reader)}

/-- The revisions from which the text of one is made. -/
inductive Needs (log : Log) (files : Files) : Nat → Nat → Prop
  | self (revision : Nat) : Needs log files revision revision
  | parent {revision other : Nat} {record : Record}
      (found : log.recordIn files.index revision = .ok record) (patch : ¬record.isLiteral)
      (earlier : 0 ≤ log.deltaParent record ∧ log.deltaParent record < revision)
      (needs : Needs log files (log.deltaParent record).toNat other) :
      Needs log files revision other

/-- A text is made from no later revision. -/
theorem Needs.le (needs : log.Needs files revision other) : other ≤ revision := by
  induction needs with
  | self revision => exact Nat.le_refl revision
  | parent found patch earlier needs ih => omega

/-! ## Rebuilding -/

/-- A revision can be rebuilt if its record can be had. -/
theorem record_of_rebuild {text : Reader} (rebuilt : log.rebuild files revision = .ok text) :
    ∃ record, log.recordIn files.index revision = .ok record := by
  cases found : log.recordIn files.index revision with
  | error failure =>
    rw [rebuild_of_error found] at rebuilt
    cases rebuilt
  | ok record => exact ⟨record, rfl⟩

/-- A patch that can be rebuilt is one on an earlier revision, which can be rebuilt too. -/
theorem rebuild_parent {text : Reader} (rebuilt : log.rebuild files revision = .ok text)
    (found : log.recordIn files.index revision = .ok record) (patch : ¬record.isLiteral) :
    (0 ≤ log.deltaParent record ∧ log.deltaParent record < revision) ∧
      ∃ base, log.rebuild files (log.deltaParent record).toNat = .ok base := by
  by_cases earlier : 0 ≤ log.deltaParent record ∧ log.deltaParent record < revision
  · rw [rebuild_of_patch found patch earlier] at rebuilt
    obtain ⟨base, before, -⟩ := Outcome.bind_eq_ok.1 rebuilt
    exact ⟨earlier, base, before⟩
  · rw [rebuild_of_later found patch earlier] at rebuilt
    cases rebuilt

/-- A revision whose content can be had can be rebuilt. -/
theorem rebuild_of_content {number : Revision} {text : Bytes}
    (checked : log.check number = .ok revision) (told : log.content disk number = .ok text) :
    ∃ files reader, log.openFiles disk = .ok files ∧ log.rebuild files revision = .ok reader := by
  obtain ⟨other, same, told⟩ := Outcome.bind_eq_ok.1 told
  obtain rfl : revision = other := Except.ok.inj (checked.symm.trans same)
  obtain ⟨files, opened, told⟩ := Outcome.bind_eq_ok.1 told
  obtain ⟨reader, rebuilt, -⟩ := Outcome.bind_eq_ok.1 told
  exact ⟨files, reader, opened, rebuilt⟩

/-- **All that is needed for a revision that can be rebuilt can be rebuilt.** -/
theorem Needs.rebuild (needs : log.Needs files revision other) {text : Reader}
    (rebuilt : log.rebuild files revision = .ok text) :
    ∃ base, log.rebuild files other = .ok base := by
  induction needs generalizing text with
  | self revision => exact ⟨text, rebuilt⟩
  | parent found patch earlier needs ih =>
    obtain ⟨-, base, before⟩ := rebuild_parent rebuilt found patch
    exact ih before

/-- Going on from what is left of the previous revision is possible exactly if rebuilding is. -/
theorem toOption_contentAfter_eq (sound : files.Sound) (retained : log.Retained files previous)
    (found : log.recordIn files.index revision = .ok record) (known : revision < log.count)
    (proper : ¬record.isLiteral → 0 ≤ log.deltaParent record ∧ log.deltaParent record < revision) :
    (log.contentAfter files record previous).toOption = (log.rebuild files revision).toOption := by
  by_cases literal : record.isLiteral
  · rw [contentAfter_of_literal literal, rebuild_of_literal found literal]
  · have earlier := proper literal
    have place := hasPlace_of_earlier known earlier
    rw [toOption_contentAfter sound retained literal place earlier.1,
      rebuild_of_patch found literal earlier]
    simp only [Outcome.toOption_bind]
    rw [toOption_bind_patched sound record (rebuild_yields sound _).provides]

/-! ## Revisions that are passed over -/

section PassingOver

variable {σ : Type} {visitor : Visitor σ} {first : Nat} {before revisions : List Nat} {state : σ}

/-- What can be rebuilt is passed over, and a text of it is left. -/
theorem visitContents_before_ok (sound : files.Sound) (proper : log.Proper files.index)
    (early : ∀ revision ∈ before, revision < first) (known : ∀ revision ∈ before, revision < log.count)
    (rebuilt : ∀ revision ∈ before, ∃ text, log.rebuild files revision = .ok text)
    (retained : log.Retained files previous) :
    ∃ handed, log.Retained files handed ∧
      log.visitContents files visitor first (before ++ revisions) previous state =
        log.visitContents files visitor first revisions handed state := by
  induction before generalizing previous with
  | nil => exact ⟨previous, retained, rfl⟩
  | cons revision before ih =>
    have here := known revision List.mem_cons_self
    obtain ⟨text, there⟩ := rebuilt revision List.mem_cons_self
    obtain ⟨record, found⟩ := record_of_rebuild there
    have made := toOption_contentAfter_eq sound retained found here (proper here found)
    have yields := contentAfter_yields sound retained found here (proper here found)
    rw [there] at made
    have content : log.contentAfter files record previous = .ok text :=
      Outcome.toOption_eq_some.1 made
    rw [content] at yields
    obtain ⟨handed, left, same⟩ :=
      ih (fun other among => early other (List.mem_cons_of_mem _ among))
        (fun other among => known other (List.mem_cons_of_mem _ among))
        (fun other among => rebuilt other (List.mem_cons_of_mem _ among))
        (retained_some yields.retains)
    refine ⟨handed, left, ?_⟩
    rw [List.cons_append, visitContents, readAfter_eq_ok.2 ⟨found, content⟩]
    dsimp only
    rw [if_pos (early revision List.mem_cons_self), same]

/-- What cannot be rebuilt ends the iteration before anything is visited. -/
theorem visitContents_before_error (sound : files.Sound) (proper : log.Proper files.index)
    (early : ∀ revision ∈ before, revision < first) (known : ∀ revision ∈ before, revision < log.count)
    (lost : ∃ revision ∈ before, ∀ text, log.rebuild files revision ≠ .ok text)
    (retained : log.Retained files previous) :
    ∃ failure, log.visitContents files visitor first (before ++ revisions) previous state =
      .stop (.error failure) state := by
  induction before generalizing previous with
  | nil =>
    obtain ⟨revision, member, -⟩ := lost
    cases member
  | cons revision before ih =>
    have here := known revision List.mem_cons_self
    rw [List.cons_append, visitContents]
    cases read : log.readAfter files revision previous with
    | error failure => exact ⟨failure, rfl⟩
    | ok told =>
      obtain ⟨record, text⟩ := told
      obtain ⟨found, content⟩ := readAfter_eq_ok.1 read
      have made := toOption_contentAfter_eq sound retained found here (proper here found)
      have yields := contentAfter_yields sound retained found here (proper here found)
      rw [content] at made yields
      dsimp only
      rw [if_pos (early revision List.mem_cons_self)]
      refine ih (fun other among => early other (List.mem_cons_of_mem _ among))
        (fun other among => known other (List.mem_cons_of_mem _ among)) ?_
        (retained_some yields.retains)
      obtain ⟨other, among, never⟩ := lost
      rcases List.mem_cons.1 among with rfl | later
      · exact absurd (Outcome.toOption_eq_some.1 made.symm) (never text)
      · exact ⟨other, later, never⟩

end PassingOver

/-! ## Iterations over one revision -/

/-- The record of revision 0 is where its offset field is not looked at, and it is a full text. -/
theorem Loaded.literal_zero (loaded : log.Loaded disk) (known : 0 < log.count)
    (opened : log.openFiles disk = .ok files) (found : log.recordIn files.index 0 = .ok record) :
    record.isLiteral := by
  obtain ⟨index, file, -, stand⟩ := loaded.index
  obtain ⟨bytes, same, whole⟩ := openIndex_eq_ok.1 (openFiles_eq_ok.1 opened).1
  obtain rfl : bytes = index := Except.ok.inj (same.symm.trans file)
  have position : log.recordPosition 0 = 0 := by
    rw [recordPosition, (stand.nth known).2]
    cases log.isInline <;> rfl
  have checked := stand.checked
  rw [whole] at found
  obtain ⟨-, -, same⟩ := recordIn_eq_ok.1 found
  have base : record.base = bytes.word (0 + 16) := by rw [same, position]; rfl
  have low := Int32.le_iff_toInt_le.1 checked.base
  have high := (checked.base_le (Nat.zero_le _)).2
  rw [← base] at low high
  rw [Record.isLiteral, same]
  rw [same] at low high
  exact decide_eq_true (Int.le_antisymm high low)

/-- Without general deltas every patch is one on the revision before. -/
theorem Loaded.proper (loaded : log.Loaded disk) (plain : ¬log.isGeneralDelta)
    (opened : log.openFiles disk = .ok files) : log.Proper files.index := by
  intro revision record known found patch
  obtain ⟨bytes, -, whole⟩ := openIndex_eq_ok.1 (openFiles_eq_ok.1 opened).1
  have read := found
  rw [whole] at read
  obtain ⟨-, -, same⟩ := recordIn_eq_ok.1 read
  have number : record.revision = revision := by rw [same]; rfl
  have later : revision ≠ 0 := by
    rintro rfl
    exact patch (loaded.literal_zero known opened found)
  rw [deltaParent, if_neg plain, number]
  omega

/-- An iteration over one revision passes over those from the base on, and then visits it. -/
theorem run_behind_base {σ : Type} {visitor : Visitor σ} {state : σ} (loaded : log.Loaded disk)
    {number : Revision} (checked : log.check number = .ok revision)
    (opened : log.openFiles disk = .ok files) :
    log.run disk number number true visitor state =
      log.visitContents files visitor revision
        (List.range' (log.readFrom revision) (revision - log.readFrom revision) ++ [revision])
        none state := by
  have le := loaded.readFrom_le (resolve_of_check checked).2
  rw [run_of_check opened checked, Nat.sub_add_comm le, List.range'_concat, Nat.one_mul,
    Nat.add_sub_cancel' le]

/-- A revision that is visited alone is handed over with its text. -/
theorem visitContents_alone {σ : Type} (gather : Record → Answer → σ → σ) (sound : files.Sound)
    (known : revision < log.count) {reader : Reader} {text : Bytes}
    (rebuilt : log.rebuild files revision = .ok reader)
    (found : log.recordIn files.index revision = .ok record)
    (told : log.text? files revision = some text) (retained : log.Retained files previous)
    (state : σ) :
    let run := log.visitContents files (.gathering gather) revision [revision] previous state
    (run.result, run.state) = (.ok (), gather record (.ok (.bytes text)) state) := by
  have yields := contentAfter_yields sound retained found known
    fun patch => (rebuild_parent rebuilt found patch).1
  rw [told] at yields
  obtain ⟨visit, left, -, run⟩ := visitContents_gathering_cons gather (Nat.le_refl _) found yields
  rw [run]
  rfl

/-- What is read before a revision that can be rebuilt can be rebuilt, if what is read without need
can be. -/
theorem rebuild_before {reader : Reader} (rebuilt : log.rebuild files revision = .ok reader)
    {base : Nat} (needless : ∀ other, base ≤ other → other < revision →
      ¬log.Needs files revision other → ∃ text, log.rebuild files other = .ok text) :
    ∀ other, base ≤ other → other < revision → ∃ text, log.rebuild files other = .ok text := by
  intro other low high
  by_cases needs : log.Needs files revision other
  · exact needs.rebuild rebuilt
  · exact needless other low high needs

/-- **When an iteration can do what a question can.** If the content of a revision can be had, an
iteration over it that reads its text succeeds and gathers the same text in a log with general
deltas. In any log it does so exactly if everything can be rebuilt that is read on the way without
being needed: the revisions from the base on that are not in the chain of the revision. -/
theorem iterate_eq_iff (loaded : log.Loaded disk) {number : Revision} {text : Bytes}
    (checked : log.check number = .ok revision) (told : log.content disk number = .ok text) :
    ∃ files record, log.openFiles disk = .ok files ∧ log.record disk number = .ok record ∧
      ∀ {σ : Type} (gather : Record → Answer → σ → σ) (state : σ),
        (log.isGeneralDelta →
          log.iterate disk number number true (Visitor.gathering gather) state =
            (.ok (), gather record (.ok (.bytes text)) state)) ∧
        (log.iterate disk number number true (Visitor.gathering gather) state =
            (.ok (), gather record (.ok (.bytes text)) state) ↔
          ∀ other, log.readFrom revision ≤ other → other < revision →
            ¬log.Needs files revision other → ∃ base, log.rebuild files other = .ok base) := by
  obtain ⟨-, known⟩ := resolve_of_check checked
  obtain ⟨files, reader, opened, rebuilt⟩ := rebuild_of_content checked told
  obtain ⟨record, found⟩ := record_of_rebuild rebuilt
  have sound := sound_of_openFiles opened
  have text? : log.text? files revision = some text := by
    rw [← toOption_content checked opened, told]
    rfl
  refine ⟨files, record, opened, ?_, fun {σ} gather state => ?_⟩
  · rw [record_eq (openFiles_eq_ok.1 opened).1 checked, found]
  have alone := fun previous (retained : log.Retained files previous) =>
    visitContents_alone gather sound known rebuilt found text? retained state
  rw [iterate, run_behind_base loaded checked opened]
  generalize passed : List.range' (log.readFrom revision) (revision - log.readFrom revision) = before
  have bounds : ∀ {other}, other ∈ before ↔ log.readFrom revision ≤ other ∧ other < revision := by
    intro other
    rw [← passed, List.mem_range'_1, Nat.add_sub_cancel' (loaded.readFrom_le known)]
  by_cases general : log.isGeneralDelta
  · have start := readFrom_of_general general revision
    rw [start, Nat.sub_self] at passed
    subst passed
    exact ⟨fun _ => alone _ retained_none,
      fun _ other low high => absurd high (Nat.not_lt.2 (start ▸ low)),
      fun _ => alone _ retained_none⟩
  · have proper := loaded.proper general opened
    have early : ∀ other ∈ before, other < revision := fun other among => (bounds.1 among).2
    have inside : ∀ other ∈ before, other < log.count :=
      fun other among => Nat.lt_trans (early other among) known
    refine ⟨fun yes => absurd yes general, fun same other low high _ => ?_, fun needless => ?_⟩
    · -- What cannot be rebuilt would have ended the iteration.
      by_contra lost
      obtain ⟨failure, run⟩ := visitContents_before_error sound proper early inside
        ⟨other, bounds.2 ⟨low, high⟩, not_exists.1 lost⟩ retained_none
      rw [run] at same
      cases same
    · have all := rebuild_before rebuilt needless
      obtain ⟨handed, retained, run⟩ := visitContents_before_ok sound proper early inside
        (fun other among => all other (bounds.1 among).1 (bounds.1 among).2) retained_none
      rw [run]
      exact alone _ retained

/-- All that is read for the second revision of the pair can be rebuilt. -/
theorem iterate_eq_iff_pair : ∃ record, pairLog.record pairDisk 1 = .ok record ∧
    pairLog.iterate pairDisk 1 1 true
        (Visitor.gathering fun record answer told => (record, answer) :: told) [] =
      (.ok (), [(record, .ok (.bytes [1, 9, 9, 3]))]) := by
  obtain ⟨files, record, opened, found, runs⟩ :=
    iterate_eq_iff loaded_pair (loaded_pair.check (show 1 < pairLog.count by decide))
      (show pairLog.content pairDisk 1 = .ok [1, 9, 9, 3] by cbv)
  refine ⟨record, found, (runs _ _).2.2 fun other _ before _ => ?_⟩
  obtain rfl : other = 0 := Nat.lt_one_iff.1 before
  obtain ⟨again, base, same, rebuilt⟩ :=
    rebuild_of_content (loaded_pair.check (show 0 < pairLog.count by decide))
      (show pairLog.content pairDisk 0 = .ok [1, 2, 3] by cbv)
  obtain rfl : files = again := Except.ok.inj (opened.symm.trans same)
  exact ⟨base, rebuilt⟩

/-! ## Damage that a revision has nothing to do with -/

/-- A text in full, a damaged patch on it, another text in full and a patch on that. All bases but
that of the third revision are the first one. -/
def damaged : List Stored :=
  [.ofChunk 0 1 [0x75, 1], .ofChunk 0 (-1) [0x75, 0], .ofChunk 2 1 [0x75, 2],
    .ofChunk 0 (-1) [0x75]]

/-- The files of a log without general deltas that holds these revisions. -/
def damagedDisk : Disk := splitDisk damaged

/-- The log with these files. -/
def damagedLog : Log := splitLog damaged

theorem sound_damaged : Index.Sound 0 0 damaged := by decide

theorem loaded_damaged : damagedLog.Loaded damagedDisk :=
  loaded_split (List.cons_ne_nil _ _) (by decide) sound_damaged

/-- The open files of the log. -/
def damagedFiles : Files := splitFiles damaged

theorem openFiles_damaged : damagedLog.openFiles damagedDisk = .ok damagedFiles :=
  openFiles_split damaged

set_option maxRecDepth 4000 in
theorem content_damaged : damagedLog.content damagedDisk 3 = .ok [2] := by
  have holds : damagedLog.Holds damagedFiles damaged := holds_split damaged
  have found := holds.recordIn_eq (n := 3) sound_damaged (by decide) rfl
  have base : damagedLog.text? damagedFiles 2 = some [2] := by cbv
  have text : damagedLog.text? damagedFiles 3 = some [2] := by
    rw [text?_of_patch found (by decide) (by decide)]
    show (damagedLog.text? damagedFiles 2).bind _ = _
    rw [base]
    cbv
  exact Outcome.toOption_eq_some.1
    ((toOption_content (loaded_damaged.check (by decide)) openFiles_damaged).trans text)

set_option maxRecDepth 4000 in
/-- The last revision is made from the one before, and its content can be had. But its base is the
first revision, so that an iteration reads the damaged one as well, and fails without a visit. -/
theorem needless_failure :
    damagedLog.Loaded damagedDisk ∧ damagedLog.content damagedDisk 3 = .ok [2] ∧
      ∀ {σ : Type} (visitor : Visitor σ) (state : σ), ∃ failure,
        damagedLog.run damagedDisk 3 3 true visitor state = .stop (.error failure) state := by
  have lost : damagedLog.rebuild damagedFiles 1 =
      .error (.file "a.d" (.readPatch 1) (.shortRead 4 0 1)) := by cbv
  refine ⟨loaded_damaged, content_damaged, fun {σ} visitor state => ?_⟩
  have checked : damagedLog.check 3 = .ok 3 := loaded_damaged.check (by decide)
  rw [run_behind_base loaded_damaged checked openFiles_damaged]
  refine visitContents_before_error (sound_of_openFiles openFiles_damaged)
    (loaded_damaged.proper (by decide) openFiles_damaged) (by decide) (by decide)
    ⟨1, by decide, fun text rebuilt => ?_⟩ retained_none
  rw [lost] at rebuilt
  cases rebuilt

end RevisionLog.Log
