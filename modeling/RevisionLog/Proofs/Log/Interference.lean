import Mathlib
import RevisionLog.Proofs.Log.Stored
import RevisionLog.Proofs.Log.Reused
import RevisionLog.Proofs.Log.Streaming

/-!
# Whether visitors see what others did

A visitor may do with a text whatever it likes, fail at it, and carry on. In a log all of whose
contents can be read this changes no record and no text that is handed out to later visits, but it
can stop the iteration: a read past the end of a compressed text spoils that text for the next
patch. `Log.interference?` tells after how many visits this happens, and by which fault.

* Up to there an iteration makes the visits that are made if nobody came before
  (`Log.visitContents_of_agreeable`), by induction on the revisions with `Log.Kept` as the
  invariant: what is left of each text is a reader that has it.
* So two visitors see the same exactly if they interfere in the same way (`Log.run_eq_run_iff`), and
  those that leave their readers in step do not interfere at all
  (`Log.interference?_of_harmless`).
-/

namespace RevisionLog

open Reader (At Has)

namespace Visitor

/-- The visitor never gives up. -/
def Agreeable {σ : Type} (visitor : Visitor σ) : Prop :=
  ∀ (record : Record) (state : σ) (reader : Reader),
    ((visitor.content record state).run reader).1.1 = .ok ()

/-- The visitor that makes one request of each text and does not care for the answer. -/
def asking (request : Request) : Visitor Unit where
  record := fun _ state => (.ok (), state)
  content := fun _ state => .ask request fun _ => .done (.ok (), state)

theorem agreeable_asking (request : Request) : (asking request).Agreeable := fun _ _ _ => rfl

end Visitor

namespace Log

/-- The records and texts of some revisions, as a visitor is given them that nobody came before. -/
def texts (log : Log) (files : Files) (revisions : List Nat) : List (Record × Reader) :=
  revisions.filterMap fun revision => (log.readAfter files revision none).toOption

/-- After how many of some texts a visitor has spoiled one for the patch of the next revision, and
the fault that this patch runs into. -/
def interference? {σ : Type} (log : Log) (files : Files) (visitor : Visitor σ) :
    List (Record × Reader) → σ → Option (Nat × Fault)
  | [], _ => none
  | (record, text) :: later, state =>
    let ((_, after), left) := (visitor.content record state).run text
    let spoiled := later.head?.bind fun next =>
      log.spoiled? files next.1 (some (record.revision, left))
    (spoiled.map (1, ·)).or
      ((log.interference? files visitor later after).map fun (told, fault) => (told + 1, fault))

/-- The run makes all the visits, the first one at revision `first`, or it is stopped after some of
them by a fault in applying the next patch. -/
def Follows {σ : Type} (log : Log) (first : Nat) (visits : List Visit) :
    Option (Nat × Fault) → Run σ → Prop
  | none, run => run.visits = visits ∧ run.result = .ok ()
  | some (told, fault), run => told < visits.length ∧ run.visits = visits.take told ∧
      run.result = .error (.file log.contentFile (.applyPatch (first + told)) fault)

/-- A visit with a text. -/
def visitOf (told : Record × Reader) : Visit := ⟨told.1, some told.2⟩

variable {log : Log} {disk : Disk} {files : Files} {σ : Type} {visitor : Visitor σ}
  {first start count : Nat} {previous : Option (Nat × Reader)}

theorem Follows.after {visits : List Visit} {interference? : Option (Nat × Fault)} {run : Run σ}
    (follows : log.Follows (start + 1) visits interference? run) (visit : Visit) :
    log.Follows start (visit :: visits)
      (interference?.map fun (told, fault) => (told + 1, fault)) (run.after visit) := by
  rcases interference? with _ | ⟨told, fault⟩
  · obtain ⟨visited, result⟩ := follows
    exact ⟨by rw [Run.after, visited], result⟩
  · obtain ⟨few, visited, result⟩ := follows
    refine ⟨Nat.succ_lt_succ few, by rw [Run.after, visited, List.take_succ_cons], ?_⟩
    rw [← Nat.add_assoc, Nat.add_right_comm]
    exact result

/-- Nothing has happened to a text that was left at its start. -/
theorem Kept.not_spoiled (fresh : log.Kept files (At · 0) previous) (record : Record) :
    log.spoiled? files record previous = none := by
  rcases previous with _ | ⟨number, left⟩
  · rfl
  · obtain ⟨text, -, stand⟩ := fresh rfl
    exact spoiled?_of_at stand record number

theorem Kept.has (fresh : log.Kept files (At · 0) previous) : log.Kept files Has previous := by
  intro number reader same
  obtain ⟨text, told, stand⟩ := fresh same
  exact ⟨text, told, stand.has⟩

/-- Two runs that follow the same visits are the same if and only if they are stopped in the same
way. -/
theorem Follows.eq_iff {τ : Type} {visits : List Visit} {one two : Option (Nat × Fault)}
    {run : Run σ} {other : Run τ} (follows : log.Follows first visits one run)
    (follows' : log.Follows first visits two other) :
    run.visits = other.visits ∧ run.result = other.result ↔ one = two := by
  rcases one with _ | ⟨told, fault⟩ <;> rcases two with _ | ⟨told', fault'⟩
  · obtain ⟨visited, result⟩ := follows
    obtain ⟨visited', result'⟩ := follows'
    exact ⟨fun _ => rfl, fun _ => ⟨visited.trans visited'.symm, result.trans result'.symm⟩⟩
  · refine ⟨fun same => ?_, nofun⟩
    have ended := follows.2.symm.trans (same.2.trans follows'.2.2)
    cases ended
  · refine ⟨fun same => ?_, nofun⟩
    have ended := follows'.2.symm.trans (same.2.symm.trans follows.2.2)
    cases ended
  · obtain ⟨-, visited, result⟩ := follows
    obtain ⟨-, visited', result'⟩ := follows'
    rw [visited, visited', result, result']
    refine ⟨?_, fun same => by cases same; exact ⟨rfl, rfl⟩⟩
    rintro ⟨-, same⟩
    injection same with same
    injection same with _ attempt wrong
    injection attempt with number
    rw [Nat.add_left_cancel number, wrong]

/-- The log decodes these revisions. -/
def DecodesAll (log : Log) (files : Files) (revisions : List Nat) : Prop :=
  ∀ revision ∈ revisions, ∃ record text, log.Decodes files revision record text

/-- A revision that is decoded is read, afresh or not, and its text is at the start. -/
theorem Decodes.readAfter_eq (sound : files.Sound) {revision : Nat} {record : Record} {text : Bytes}
    (decodes : log.Decodes files revision record text) (kept : log.Kept files Has previous) :
    ∃ reader, At text 0 reader ∧ log.readAfter files revision none = .ok (record, reader) ∧
      log.readAfter files revision previous = (log.spoiled? files record previous).elim
        (.ok (record, reader))
        fun fault => .error (.file log.contentFile (.applyPatch revision) fault) := by
  obtain ⟨reader, made, start⟩ := decodes.contentAfter_none sound
  refine ⟨reader, start, readAfter_eq_ok.2 ⟨decodes.found, made⟩, ?_⟩
  rw [readAfter, decodes.found]
  show log.contentAfter files record previous >>= _ = _
  rw [decodes.contentAfter_eq sound kept, made, decodes.number]
  cases log.spoiled? files record previous <;> rfl

theorem texts_cons {revision : Nat} {told : Record × Reader} {revisions : List Nat}
    (read : log.readAfter files revision none = .ok told) :
    log.texts files (revision :: revisions) = told :: log.texts files revisions := by
  rw [texts, List.filterMap_cons, read]
  rfl

/-- What comes before the range is read, and left as it is. -/
theorem visitContents_before (visitor : Visitor σ) (sound : files.Sound)
    (before revisions : List Nat) (early : ∀ revision ∈ before, revision < first)
    (decodes : log.DecodesAll files before) (fresh : log.Kept files (At · 0) previous) (state : σ) :
    ∃ handed, log.Kept files (At · 0) handed ∧
      log.visitContents files visitor first (before ++ revisions) previous state =
        log.visitContents files visitor first revisions handed state := by
  induction before generalizing previous with
  | nil => exact ⟨previous, fresh, rfl⟩
  | cons revision before ih =>
    obtain ⟨record, text, here⟩ := decodes revision List.mem_cons_self
    obtain ⟨reader, stand, -, read⟩ := here.readAfter_eq sound fresh.has
    rw [fresh.not_spoiled] at read
    obtain ⟨handed, kept, same⟩ :=
      ih (fun other among => early other (List.mem_cons_of_mem _ among))
        (fun other among => decodes other (List.mem_cons_of_mem _ among))
        (kept_some here.text stand)
    refine ⟨handed, kept, ?_⟩
    rw [List.cons_append, visitContents, read]
    dsimp only [Option.elim_none]
    rw [if_pos (early revision List.mem_cons_self), same]

/-- **An iteration with an agreeable visitor** visits the texts that anybody is given, up to the one
that the visitor has spoiled. By induction on the number of revisions. -/
theorem visitContents_of_agreeable (agreeable : visitor.Agreeable) (sound : files.Sound)
    (le : first ≤ start) (decodes : log.DecodesAll files (List.range' start count))
    (kept : log.Kept files Has previous)
    (ready : ((log.texts files (List.range' start count)).head?.bind
      fun next => log.spoiled? files next.1 previous) = none) (state : σ) :
    log.Follows start ((log.texts files (List.range' start count)).map visitOf)
      (log.interference? files visitor (log.texts files (List.range' start count)) state)
      (log.visitContents files visitor first (List.range' start count) previous state) := by
  induction count generalizing start previous state with
  | zero => exact ⟨rfl, rfl⟩
  | succ count ih =>
    rw [List.range'_succ] at decodes ready ⊢
    obtain ⟨record, text, here⟩ := decodes start List.mem_cons_self
    have later : log.DecodesAll files (List.range' (start + 1) count) :=
      fun revision among => decodes revision (List.mem_cons_of_mem _ among)
    obtain ⟨reader, stand, afresh, read⟩ := here.readAfter_eq sound kept
    rw [texts_cons afresh] at ready ⊢
    rw [show log.spoiled? files record previous = none from ready] at read
    have has := (visitor.content record state).has stand.has
    have pleased := agreeable record state reader
    rw [visitContents, read]
    dsimp only [Option.elim_none]
    rw [if_neg (Nat.not_lt_of_le le), stand.reset]
    dsimp only
    rw [interference?, List.map_cons]
    generalize (visitor.content record state).run reader = run at has pleased ⊢
    obtain ⟨⟨result, after⟩, left⟩ := run
    cases pleased
    have kept : log.Kept files Has (some (start, left)) := kept_some here.text has
    dsimp only
    rw [here.number]
    cases spoiled : (log.texts files (List.range' (start + 1) count)).head?.bind
        fun next => log.spoiled? files next.1 (some (start, left)) with
    | none =>
      exact (ih (Nat.le_succ_of_le le) later kept spoiled after).after _
    | some fault =>
      cases count with
      | zero => cases spoiled
      | succ count =>
        rw [List.range'_succ] at later spoiled ⊢
        obtain ⟨next, behind, there⟩ := later (start + 1) List.mem_cons_self
        obtain ⟨other, -, afresh, read⟩ := there.readAfter_eq sound kept
        rw [texts_cons afresh] at spoiled ⊢
        rw [show log.spoiled? files next (some (start, left)) = some fault from spoiled] at read
        rw [visitContents, read]
        refine ⟨?_, rfl, rfl⟩
        rw [List.map_cons, List.length_cons, List.length_cons]
        omega

/-! ## Logs whose contents can all be read -/

/-- What is asked for of a revision is there if its content is. -/
theorem Loaded.decodes (loaded : log.Loaded disk) (opened : log.openFiles disk = .ok files)
    {revision : Nat} (known : revision < log.count) {text : Bytes}
    (content : log.content disk (Int32.ofNat revision) = .ok text) :
    ∃ record, log.Decodes files revision record text := by
  have told := toOption_content (loaded.check known) opened
  rw [content] at told
  cases found : log.recordIn files.index revision with
  | error failure =>
    rw [text?, found] at told
    cases told
  | ok record =>
    obtain ⟨bytes, -, whole⟩ := openIndex_eq_ok.1 (openFiles_eq_ok.1 opened).1
    have read := found
    rw [whole] at read
    obtain ⟨-, -, same⟩ := recordIn_eq_ok.1 read
    exact ⟨record, known, found, by rw [same]; rfl, told.symm⟩

/-- A log that decodes all its revisions decodes those of a range. -/
theorem decodesAll_range {last : Nat} (inside : last < log.count)
    (decodes : ∀ revision < log.count, ∃ record text, log.Decodes files revision record text) :
    log.DecodesAll files (List.range' first (last + 1 - first)) := by
  intro revision among
  rw [List.mem_range'_1] at among
  exact decodes revision (by omega)

/-- Every revision that is decoded is told. -/
theorem map_texts (sound : files.Sound) {revisions : List Nat}
    (decodes : log.DecodesAll files revisions) :
    (log.texts files revisions).map some =
      revisions.map fun revision => (log.readAfter files revision none).toOption := by
  induction revisions with
  | nil => rfl
  | cons revision revisions ih =>
    obtain ⟨record, text, here⟩ := decodes revision List.mem_cons_self
    obtain ⟨reader, -, read, -⟩ := here.readAfter_eq sound kept_none
    rw [texts_cons read, List.map_cons, List.map_cons, read,
      ih fun other among => decodes other (List.mem_cons_of_mem _ among)]
    rfl

/-- What is told is the record of its revision and a reader at the start of the content. -/
theorem told_of_texts (loaded : log.Loaded disk) (opened : log.openFiles disk = .ok files)
    {revisions : List Nat} (decodes : log.DecodesAll files revisions) {n : Nat}
    {told : Record × Reader} (found : (log.texts files revisions)[n]? = some told) :
    ∃ revision, revisions[n]? = some revision ∧
      log.record disk (Int32.ofNat revision) = .ok told.1 ∧ told.2.position = 0 ∧
        ∀ text, (Reader.rest told.2).1 = .ok text ↔
          log.content disk (Int32.ofNat revision) = .ok text := by
  have sound := sound_of_openFiles opened
  have same := congrArg (·[n]?) (map_texts sound decodes)
  simp only [List.getElem?_map, found, Option.map_some] at same
  obtain ⟨revision, among, read⟩ := Option.map_eq_some_iff.1 same.symm
  obtain ⟨record, text, here⟩ := decodes revision (List.mem_of_getElem? among)
  obtain ⟨reader, stand, afresh, -⟩ := here.readAfter_eq sound kept_none
  rw [afresh] at read
  cases read
  have checked := loaded.check here.known
  refine ⟨revision, among, ?_, stand.position_eq, fun other => ?_⟩
  · rw [record_eq (openFiles_eq_ok.1 opened).1 checked, here.found]
  · obtain ⟨moved, run, -⟩ := stand.rest
    have content := toOption_content checked opened
    rw [here.text, Outcome.toOption_eq_some] at content
    rw [run, content, List.drop_zero]
    dsimp only
    rw [Except.ok.injEq, Except.ok.injEq]

/-- An iteration over a range of a log whose contents can all be read. -/
theorem run_of_agreeable (loaded : log.Loaded disk) (opened : log.openFiles disk = .ok files)
    {start stop : Revision} {first last : Nat}
    (range : log.checkRange start stop = .ok (first, last))
    (decodes : ∀ revision < log.count, ∃ record text, log.Decodes files revision record text)
    (agreeable : visitor.Agreeable) (state : σ) :
    log.Follows first ((log.texts files (List.range' first (last + 1 - first))).map visitOf)
      (log.interference? files visitor
        (log.texts files (List.range' first (last + 1 - first))) state)
      (log.run disk start stop true visitor state) := by
  have sound := sound_of_openFiles opened
  obtain ⟨forward, inside⟩ := checkRange_eq_ok range
  have early := loaded.readFrom_le (Nat.lt_of_le_of_lt forward inside)
  have parts : List.range' (log.readFrom first) (last + 1 - log.readFrom first) =
      List.range' (log.readFrom first) (first - log.readFrom first) ++
        List.range' first (last + 1 - first) := by
    have joined : first - log.readFrom first + (last + 1 - first) =
        last + 1 - log.readFrom first := by
      omega
    rw [← joined, ← List.range'_append_1, Nat.add_sub_cancel' early]
  have warm : ∀ revision ∈ List.range' (log.readFrom first) (first - log.readFrom first),
      revision < first := by
    intro revision among
    rw [List.mem_range'_1] at among
    omega
  have asked : log.DecodesAll files (List.range' first (last + 1 - first)) :=
    decodesAll_range inside decodes
  obtain ⟨handed, fresh, same⟩ := visitContents_before visitor sound
    (List.range' (log.readFrom first) (first - log.readFrom first))
    (List.range' first (last + 1 - first)) warm
    (fun revision among => decodes revision (by have := warm revision among; omega)) kept_none state
  rw [run_of_range range opened, parts, same]
  refine visitContents_of_agreeable agreeable sound (Nat.le_refl _) asked fresh.has ?_ state
  simp [fresh.not_spoiled]

/-- **Two visitors that never give up see the same, and their iterations end alike, exactly if they
interfere in the same way.** Up to the text that a visitor has spoiled the visits are those of the
records and contents of the range, each text at its start, whatever was done to those before. -/
theorem run_eq_run_iff (loaded : log.Loaded disk)
    (contents : ∀ (number : Revision) (revision : Nat), log.check number = .ok revision →
      ∃ text, log.content disk number = .ok text)
    {start stop : Revision} {first last : Nat}
    (range : log.checkRange start stop = .ok (first, last)) :
    ∃ files, log.openFiles disk = .ok files ∧
      let texts := log.texts files (List.range' first (last + 1 - first))
      texts.length = last + 1 - first ∧
      (∀ (n : Nat) (told : Record × Reader), texts[n]? = some told →
        log.record disk (Int32.ofNat (first + n)) = .ok told.1 ∧ told.2.position = 0 ∧
          ∀ text, (Reader.rest told.2).1 = .ok text ↔
            log.content disk (Int32.ofNat (first + n)) = .ok text) ∧
      ∀ {σ τ : Type} (visitor : Visitor σ) (other : Visitor τ), visitor.Agreeable →
        other.Agreeable → ∀ (state : σ) (state' : τ),
          let run := log.run disk start stop true visitor state
          let run' := log.run disk start stop true other state'
          log.Follows first (texts.map visitOf) (log.interference? files visitor texts state) run ∧
          log.Follows first (texts.map visitOf) (log.interference? files other texts state') run' ∧
          (run.visits = run'.visits ∧ run.result = run'.result ↔
            log.interference? files visitor texts state =
              log.interference? files other texts state') := by
  obtain ⟨forward, inside⟩ := checkRange_eq_ok range
  obtain ⟨files, opened⟩ : ∃ files, log.openFiles disk = .ok files := by
    obtain ⟨text, content⟩ := contents _ first (loaded.check (by omega))
    obtain ⟨revision, -, content⟩ := Outcome.bind_eq_ok.1 content
    obtain ⟨files, opened, -⟩ := Outcome.bind_eq_ok.1 content
    exact ⟨files, opened⟩
  have decodes : ∀ revision < log.count, ∃ record text, log.Decodes files revision record text := by
    intro revision known
    obtain ⟨text, content⟩ := contents _ revision (loaded.check known)
    obtain ⟨record, decodes⟩ := loaded.decodes opened known content
    exact ⟨record, text, decodes⟩
  have asked : log.DecodesAll files (List.range' first (last + 1 - first)) :=
    decodesAll_range inside decodes
  refine ⟨files, opened, ?_, ?_, ?_⟩
  · have length := congrArg List.length (map_texts (sound_of_openFiles opened) asked)
    rwa [List.length_map, List.length_map, List.length_range'] at length
  · intro n told found
    obtain ⟨revision, among, rest⟩ := told_of_texts loaded opened asked found
    rw [List.getElem?_eq_some_iff] at among
    obtain ⟨few, rfl⟩ := among
    rwa [List.getElem_range', Nat.one_mul] at rest
  · intro σ τ visitor other agreeable agreeable' state state' run run'
    have follows : log.Follows first _ _ run :=
      run_of_agreeable loaded opened range decodes agreeable state
    have follows' : log.Follows first _ _ run' :=
      run_of_agreeable loaded opened range decodes agreeable' state'
    exact ⟨follows, follows', follows.eq_iff follows'⟩

/-- A visitor that leaves readers in step with their texts interferes with nothing. -/
theorem interference?_of_harmless (harmless : visitor.Harmless) (sound : files.Sound)
    {revisions : List Nat} (decodes : log.DecodesAll files revisions) (state : σ) :
    log.interference? files visitor (log.texts files revisions) state = none := by
  induction revisions generalizing state with
  | nil => rfl
  | cons revision revisions ih =>
    obtain ⟨record, text, here⟩ := decodes revision List.mem_cons_self
    obtain ⟨reader, stand, read, -⟩ := here.readAfter_eq sound kept_none
    have later := ih fun other among => decodes other (List.mem_cons_of_mem _ among)
    have left := harmless record state (.text stand)
    rw [texts_cons read, interference?]
    generalize (visitor.content record state).run reader = run at left ⊢
    obtain ⟨⟨result, after⟩, left'⟩ := run
    cases left with
    | @text text' position _ there =>
      have sound : ∀ next, log.spoiled? files next (some (record.revision, left')) = none :=
        fun next => spoiled?_of_at there next record.revision
      simp [sound, later]

/-! ## A visitor that reads past the end -/

/-- A compressed text and a patch that appends to it. -/
def compressed : List Stored :=
  [.ofChunk 0 3 [0x78, 1, 1, 3, 0, 0xfc, 0xff, 1, 2, 3, 0, 13, 0, 7],
    .ofChunk 0 4 (Patch.write [⟨3, 3, [9]⟩])]

/-- The files of a log with a data file that holds the two revisions. -/
def compressedDisk : Disk := splitDisk compressed

/-- The log with these files. -/
def compressedLog : Log := splitLog compressed

/-- The open files of the log. -/
def compressedFiles : Files := splitFiles compressed

theorem loaded_compressed : compressedLog.Loaded compressedDisk :=
  loaded_split (List.cons_ne_nil _ _) (by decide) (by decide)

set_option maxRecDepth 4000 in
theorem contents_compressed (number : Revision) (revision : Nat)
    (checked : compressedLog.check number = .ok revision) :
    ∃ text, compressedLog.content compressedDisk number = .ok text := by
  have first : compressedLog.content compressedDisk 0 = .ok [1, 2, 3] := by cbv
  have second : compressedLog.content compressedDisk 1 = .ok [1, 2, 3, 9] := by cbv
  have known : revision < 2 := (resolve_of_check checked).2
  obtain rfl | rfl : revision = 0 ∨ revision = 1 := by omega
  · exact ⟨_, (content_eq_of_check checked rfl).trans first⟩
  · exact ⟨_, (content_eq_of_check checked rfl).trans second⟩

set_option maxRecDepth 4000 in
/-- Asking for more than there is of each text stops the iteration before the second one, and asking
for its length does not. -/
theorem past_end_stops :
    compressedLog.Loaded compressedDisk ∧
      (∀ (number : Revision) (revision : Nat), compressedLog.check number = .ok revision →
        ∃ text, compressedLog.content compressedDisk number = .ok text) ∧
      (Visitor.asking .length).Agreeable ∧ (Visitor.asking (.read 100)).Agreeable ∧
      compressedLog.iterate compressedDisk 0 1 true (.asking .length) () = (.ok (), ()) ∧
      compressedLog.iterate compressedDisk 0 1 true (.asking (.read 100)) () =
        (.error (.file "a.d" (.applyPatch 1) .inflatedEnd), ()) :=
  ⟨loaded_compressed, contents_compressed, Visitor.agreeable_asking _, Visitor.agreeable_asking _, by cbv, by cbv⟩

/-- What asking both texts for something does to the second one. -/
def asked? (request : Request) : Option (Nat × Fault) :=
  compressedLog.interference? compressedFiles (.asking request)
    (compressedLog.texts compressedFiles (List.range' 0 2)) ()

/-- An iteration that asks both texts for something. -/
def askingRun (request : Request) : Run Unit :=
  compressedLog.run compressedDisk 0 1 true (.asking request) ()

set_option maxRecDepth 4000 in
theorem asked?_length : asked? .length = none := by cbv

set_option maxRecDepth 4000 in
theorem asked?_rest : asked? .rest = none := by cbv

set_option maxRecDepth 4000 in
theorem asked?_read : asked? (.read 100) = some (1, .inflatedEnd) := by cbv

/-- Reading to the end is as good as asking for the length, but reading past it is not. -/
theorem run_eq_run_iff_compressed :
    asked? .length = none ∧ asked? .rest = none ∧ asked? (.read 100) = some (1, .inflatedEnd) ∧
      ((askingRun .length).visits = (askingRun .rest).visits ∧
        (askingRun .length).result = (askingRun .rest).result) ∧
      ¬((askingRun .length).visits = (askingRun (.read 100)).visits ∧
        (askingRun .length).result = (askingRun (.read 100)).result) := by
  obtain ⟨files, opened, -, -, agree⟩ :=
    run_eq_run_iff loaded_compressed contents_compressed
      (show compressedLog.checkRange 0 1 = .ok (0, 1) from rfl)
  obtain rfl : compressedFiles = files := Except.ok.inj opened
  have same := (agree (.asking .length) (.asking .rest) (Visitor.agreeable_asking _) (Visitor.agreeable_asking _)
    () ()).2.2
  have apart := (agree (.asking .length) (.asking (.read 100)) (Visitor.agreeable_asking _)
    (Visitor.agreeable_asking _) () ()).2.2
  exact ⟨asked?_length, asked?_rest, asked?_read, same.2 (asked?_length.trans asked?_rest.symm),
    fun alike => nomatch asked?_length.symm.trans ((apart.1 alike).trans asked?_read)⟩

end Log

end RevisionLog
