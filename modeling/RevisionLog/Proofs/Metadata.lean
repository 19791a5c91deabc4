import Mathlib
import RevisionLog.FileLog
import RevisionLog.Proofs.Log.RoundTrip
import RevisionLog.Proofs.Text.Utf8

/-!
# Blocks of metadata

A text starts with a block if it starts with a marker and there is another marker behind it; the
first such marker closes the block (`Metadata.Block`). The parser reads exactly the blocks: it finds
none in other texts, and fails if the block is not closed or one of its lines has no colon. What it
reads from a block that was written from entries (`Metadata.write`) are these entries, if their
values are one line each with no blanks around it and do not run into the closing marker
(`Metadata.Keepable`).
-/

namespace RevisionLog

/-! ## Blanks around a text -/

namespace Text

theorem trim_cons_blank {c : Char} (blank : isBlank c) (chars : List Char) :
    trim (c :: chars) = trim chars := by
  rw [trim, List.dropWhile_cons_of_pos blank, trim]

/-- Trimming keeps the texts that neither start nor end with a blank. -/
theorem trim_eq_self_iff {chars : List Char} : trim chars = chars ↔
    (∀ c ∈ chars.head?, ¬isBlank c) ∧ ∀ c ∈ chars.getLast?, ¬isBlank c := by
  have ends : chars.rdropWhile isBlank = chars ↔ ∀ c ∈ chars.getLast?, ¬isBlank c := by
    rw [List.rdropWhile_eq_self_iff]
    constructor
    · rintro last c member
      obtain ⟨there, rfl⟩ := List.mem_getLast?_eq_getLast member
      exact last there
    · exact fun last there => last _ (List.getLast?_eq_some_getLast there)
  have starts : chars.dropWhile isBlank = chars ↔ ∀ c ∈ chars.head?, ¬isBlank c := by
    cases chars with
    | nil => simp
    | cons c chars =>
      rw [List.dropWhile_eq_self_iff]
      simp
  rw [← starts, ← ends]
  change (chars.dropWhile isBlank).rdropWhile isBlank = chars ↔ _
  constructor
  · intro same
    have front : chars.dropWhile isBlank = chars := by
      refine (List.dropWhile_suffix isBlank).eq_of_length_le ?_
      have short := (List.rdropWhile_prefix isBlank (chars.dropWhile isBlank)).length_le
      rwa [same] at short
    rw [front] at same
    exact ⟨front, same⟩
  · rintro ⟨front, back⟩
    rw [front, back]

end Text

namespace Metadata

variable {text body rest line bytes : Bytes} {position : Nat}

/-! ## Blocks -/

/-- The first bytes of a text are a block: a body between two markers, the second of which is the
first one behind the opening one. -/
structure Block (text body rest : Bytes) : Prop where
  whole : text = marker ++ body ++ marker ++ rest
  first : ∀ early late, body ++ marker ++ rest = early ++ marker ++ late →
    body.length ≤ early.length

theorem marker_isPrefixOf_iff : marker.isPrefixOf bytes ↔ ∃ rest, bytes = marker ++ rest := by
  rw [List.isPrefixOf_iff_prefix]
  exact exists_congr fun _ => eq_comm

/-- The search ends at a marker. -/
theorem findMarker_eq_some {stop : Nat} (found : findMarker position bytes = some stop) :
    ∃ body rest, stop = position + body.length ∧ bytes = body ++ marker ++ rest := by
  fun_induction findMarker position bytes with
  | case1 => cases found
  | case2 position b tail here =>
    obtain ⟨rest, whole⟩ := marker_isPrefixOf_iff.1 here
    cases found
    exact ⟨[], rest, rfl, whole⟩
  | case3 position b tail here ih =>
    obtain ⟨body, rest, behind, whole⟩ := ih found
    refine ⟨b :: body, rest, ?_, by rw [whole]; rfl⟩
    rw [behind, List.length_cons]
    omega

/-- The search ends no later than at any marker. -/
theorem findMarker_le (position : Nat) (early late : Bytes) :
    ∃ stop ≤ position + early.length,
      findMarker position (early ++ marker ++ late) = some stop := by
  induction early generalizing position with
  | nil => exact ⟨position, le_rfl, rfl⟩
  | cons b early ih =>
    rw [List.cons_append, List.cons_append, findMarker]
    split
    · exact ⟨position, by omega, rfl⟩
    · obtain ⟨stop, bound, found⟩ := ih (position + 1)
      exact ⟨stop, by rw [List.length_cons]; omega, found⟩

/-- The search finds the end of the body. -/
theorem Block.findMarker (block : Block text body rest) :
    findMarker 0 (text.drop 2) = some body.length := by
  obtain ⟨stop, bound, found⟩ := findMarker_le 0 body rest
  obtain ⟨early, late, rfl, whole⟩ := findMarker_eq_some found
  have least := block.first early late whole
  have behind : text.drop 2 = body ++ marker ++ rest := by
    rw [block.whole]
    rfl
  rw [behind, found]
  congr 1
  omega

/-- What is found behind an opening marker closes a block. -/
theorem block_of_findMarker
    (found : findMarker 0 (body ++ marker ++ rest) = some body.length) :
    Block (marker ++ body ++ marker ++ rest) body rest where
  whole := rfl
  first early late same := by
    obtain ⟨least, bound, again⟩ := findMarker_le 0 early late
    rw [← same, found] at again
    cases again
    omega

/-- A block has two bytes at either end. -/
theorem length_block (body : Bytes) : (marker ++ body ++ marker).length = 4 + body.length := by
  simp only [marker, List.length_append, List.length_cons, List.length_nil]
  omega

/-! ## Lines -/

/-- The lines of a byte string are its parts between line feeds. -/
theorem lines_eq_splitOn (bytes : Bytes) : lines bytes = bytes.splitOn 10 := by
  induction bytes with
  | nil => rfl
  | cons b bytes ih =>
    rw [List.splitOn_cons_eq_if_modifyHead, ← ih, lines, List.foldr_cons, ← lines]
    by_cases feed : b = 10
    · simp [feed]
    · have some : lines bytes ≠ [] := ih ▸ List.splitOn_ne_nil 10 bytes
      obtain ⟨line, others, parts⟩ := List.exists_cons_of_ne_nil some
      simp [feed, parts]

theorem lines_append (oneLine : 10 ∉ line) (rest : Bytes) :
    lines (line ++ 10 :: rest) = line :: lines rest := by
  have none : ∀ b ∈ line, (b == 10) = false := by
    intro b member
    exact beq_false_of_ne fun feed : b = 10 => oneLine (feed ▸ member)
  rw [lines_eq_splitOn, lines_eq_splitOn]
  exact List.splitOnP_append_cons_of_forall_mem none 10 rfl rest

/-- A line is an entry exactly if it has a colon. -/
theorem parseLine_eq_error_iff : (∃ fault, parseLine line = .error fault) ↔ 58 ∉ line := by
  have absent : line.dropWhile (· ≠ 58) = [] ↔ 58 ∉ line := by
    simp only [List.dropWhile_eq_nil_iff, decide_eq_true_eq]
    constructor
    · exact fun others colon => others 58 colon rfl
    · exact fun absent b member same => absent (same ▸ member)
  rw [← absent, parseLine]
  cases line.dropWhile (· ≠ 58) with
  | nil => exact ⟨fun _ => rfl, fun _ => ⟨_, rfl⟩⟩
  | cons colon value =>
    constructor
    · rintro ⟨_, ⟨⟩⟩
    · rintro ⟨⟩

/-! ## Reading a block -/

/-- The entries of a block are those of its lines, apart from empty ones. -/
theorem parse_of_block (block : Block text body rest) : parse text = do
    let entries ← ((lines body).filter (· ≠ [])).mapM parseLine
    return ⟨entries, 4 + body.length⟩ := by
  have starts : marker.isPrefixOf text :=
    marker_isPrefixOf_iff.2 ⟨body ++ marker ++ rest, by simp [block.whole]⟩
  have long : ¬text.length < 4 := by
    simp only [block.whole, marker, List.length_append, List.length_cons]
    omega
  have between : (text.drop 2).take body.length = body := by
    rw [block.whole]
    simp [marker]
  rw [parse, if_neg (by simp [long, starts]), block.findMarker]
  show (((lines ((text.drop 2).take body.length)).filter _).mapM parseLine >>= _) = _
  rw [between]

/-- There is no block in a text that is too short or does not start with a marker. -/
theorem parse_of_unmarked (unmarked : text.length < 4 ∨ ¬marker.isPrefixOf text) :
    parse text = .ok {} := by
  rw [parse, if_pos unmarked]

/-- A text that starts with a marker starts with a block or fails to parse. -/
theorem block_or_error (long : 4 ≤ text.length) (starts : marker.isPrefixOf text) :
    (∃ body rest, Block text body rest) ∨
      ¬marker <:+: text.drop 2 ∧ parse text = .error .unclosedMetadata := by
  have marked : ¬(text.length < 4 ∨ ¬marker.isPrefixOf text) := by
    simp only [starts, not_true_eq_false, or_false]
    omega
  obtain ⟨behind, rfl⟩ := marker_isPrefixOf_iff.1 starts
  have same : (marker ++ behind).drop 2 = behind := rfl
  cases found : findMarker 0 behind with
  | some stop =>
    obtain ⟨body, rest, length, rfl⟩ := findMarker_eq_some found
    rw [length, Nat.zero_add] at found
    have block := block_of_findMarker found
    exact .inl ⟨body, rest, by simpa using block⟩
  | none =>
    refine .inr ⟨?_, ?_⟩
    · rintro ⟨early, late, whole⟩
      obtain ⟨stop, -, again⟩ := findMarker_le 0 early late
      rw [whole, same, found] at again
      cases again
    · rw [parse, if_neg marked, same, found]

/-- Reading lines fails exactly if one of them is no entry. -/
theorem mapM_parseLine_eq_error_iff {lines : List Bytes} :
    (∃ fault, lines.mapM parseLine = .error fault) ↔ ∃ line ∈ lines, 58 ∉ line := by
  induction lines with
  | nil => simp [pure, Except.pure]
  | cons line lines ih =>
    rw [List.mapM_cons, List.exists_mem_cons_iff, ← parseLine_eq_error_iff, ← ih]
    cases parseLine line with
    | error fault => exact ⟨fun _ => .inl ⟨_, rfl⟩, fun _ => ⟨_, rfl⟩⟩
    | ok entry =>
      cases lines.mapM parseLine with
      | error fault => exact ⟨fun _ => .inr ⟨_, rfl⟩, fun _ => ⟨_, rfl⟩⟩
      | ok entries => simp [bind, Except.bind, pure, Except.pure]

/-! ## Writing entries -/

/-- A line of a block: a key, a colon, a blank and a value. -/
def writeLine (entry : String × String) : Bytes :=
  Text.utf8 entry.1 ++ [58, 32] ++ Text.utf8 entry.2

/-- The lines of some entries, each with a line feed. -/
def writeLines (entries : List (String × String)) : Bytes :=
  entries.flatMap fun entry => writeLine entry ++ [10]

/-- The block that holds some entries. -/
def write (entries : List (String × String)) : Bytes := marker ++ writeLines entries ++ marker

/-- A key that a line keeps apart from its value. -/
def IsKey (key : String) : Prop := ':' ∉ key.toList ∧ '\n' ∉ key.toList

/-- A value that comes back from a line: it is one line with no blank at either end, and does not
make a marker of the line feed behind it. -/
structure Keepable (value : String) : Prop where
  oneLine : '\n' ∉ value.toList
  first : ∀ c ∈ value.toList.head?, ¬Text.isBlank c
  last : ∀ c ∈ value.toList.getLast?, ¬Text.isBlank c ∧ c ≠ '\x01'

/-- An entry whose line ends where it should. -/
structure Writable (entry : String × String) : Prop where
  key : IsKey entry.1
  oneLine : '\n' ∉ entry.2.toList
  unmarked : entry.2.toList.getLast? ≠ some '\x01'

/-- The entry of a line, its value without the blanks around it. -/
def trimmed (entry : String × String) : String × String :=
  (entry.1, String.ofList (Text.trim entry.2.toList))

variable {entry : String × String}

theorem parseLine_writeLine (key : ':' ∉ entry.1.toList) :
    parseLine (writeLine entry) = .ok (trimmed entry) := by
  have before : ∀ b ∈ Text.utf8 entry.1, decide (b ≠ 58) = true := by
    intro b member
    refine decide_eq_true fun colon : b = 58 => key ?_
    rw [colon] at member
    exact (Text.mem_utf8_iff (c := ':') (by decide)).1 member
  have blank : Text.decode (32 :: Text.utf8 entry.2) = ' ' :: entry.2.toList := by
    rw [Text.decode_ascii (by decide), Text.decode_utf8]
    rfl
  rw [parseLine, writeLine, List.append_assoc, List.dropWhile_append_of_pos before,
    List.takeWhile_append_of_pos before]
  change Except.ok (Text.ofBytes (Text.utf8 entry.1 ++ []),
    String.ofList (Text.trim (Text.decode (32 :: Text.utf8 entry.2)))) = _
  rw [List.append_nil, Text.ofBytes_utf8, blank, Text.trim_cons_blank (by decide), trimmed]

theorem feed_not_mem_writeLine (key : '\n' ∉ entry.1.toList) (value : '\n' ∉ entry.2.toList) :
    10 ∉ writeLine entry := by
  have apart {text : String} : (10 : UInt8) ∈ Text.utf8 text ↔ '\n' ∈ text.toList :=
    Text.mem_utf8_iff (c := '\n') (by decide)
  simp [writeLine, apart, key, value]

theorem Writable.feed_not_mem (writable : Writable entry) : 10 ∉ writeLine entry :=
  feed_not_mem_writeLine writable.key.2 writable.oneLine

theorem Writable.getLast?_ne (writable : Writable entry) : (writeLine entry).getLast? ≠ some 1 := by
  have last : (Text.utf8 entry.2).getLast? ≠ some 1 :=
    fun last => writable.unmarked ((Text.getLast?_utf8_iff (c := '\x01') (by decide)).1 last)
  by_cases empty : Text.utf8 entry.2 = []
  · simp [writeLine, empty]
  · rwa [writeLine, List.getLast?_append_of_ne_nil _ empty]

/-- There is no marker in a line, unless one starts with its last byte. -/
theorem findMarker_append {front : Bytes} (oneLine : 10 ∉ front)
    (apart : front.getLast? = some 1 → rest.head? ≠ some 10) (position : Nat) :
    findMarker position (front ++ rest) = findMarker (position + front.length) rest := by
  induction front generalizing position with
  | nil => rfl
  | cons b front ih =>
    -- The second byte of a marker here would be a line feed in the line, or be the one behind it.
    have none : ¬marker.isPrefixOf (b :: (front ++ rest)) := by
      intro here
      obtain ⟨tail, whole⟩ := marker_isPrefixOf_iff.1 here
      obtain ⟨rfl, next⟩ := List.cons.inj whole
      cases front with
      | nil => exact apart rfl (by rw [← List.nil_append rest, next]; rfl)
      | cons c front =>
        obtain ⟨rfl, -⟩ := List.cons.inj next
        simp at oneLine
    have behind : front.getLast? = some 1 → rest.head? ≠ some 10 := by
      intro last
      refine apart ?_
      rw [List.getLast?_cons, last]
      rfl
    rw [List.cons_append, findMarker, if_neg none,
      ih (List.not_mem_of_not_mem_cons oneLine) behind, List.length_cons]
    congr 1
    omega

theorem writeLines_cons (entry : String × String) (entries : List (String × String)) :
    writeLines (entry :: entries) = writeLine entry ++ 10 :: writeLines entries := by
  simp [writeLines]

variable {entries : List (String × String)}

/-- The search passes over the lines of entries. -/
theorem findMarker_writeLines (writable : ∀ entry ∈ entries, Writable entry) (position : Nat)
    (rest : Bytes) : findMarker position (writeLines entries ++ marker ++ rest) =
      some (position + (writeLines entries).length) := by
  induction entries generalizing position with
  | nil => rfl
  | cons entry entries ih =>
    rw [List.forall_mem_cons] at writable
    have last := writable.1.getLast?_ne
    have feed (position : Nat) (behind : Bytes) :
        findMarker position (10 :: behind) = findMarker (position + 1) behind := rfl
    rw [writeLines_cons, List.append_assoc, List.append_assoc,
      findMarker_append writable.1.feed_not_mem (fun ends => absurd ends last), List.cons_append,
      feed, ← List.append_assoc, ih writable.2, List.length_append, List.length_cons]
    congr 1
    omega

/-- What is written is a block. -/
theorem block_write (writable : ∀ entry ∈ entries, Writable entry) (rest : Bytes) :
    Block (write entries ++ rest) (writeLines entries) rest :=
  block_of_findMarker (by rw [findMarker_writeLines writable, Nat.zero_add])

theorem mapM_writeLines (writable : ∀ entry ∈ entries, Writable entry) :
    ((lines (writeLines entries)).filter (· ≠ [])).mapM parseLine = .ok (entries.map trimmed) := by
  induction entries with
  | nil => rfl
  | cons entry entries ih =>
    rw [List.forall_mem_cons] at writable
    have there : decide (writeLine entry ≠ []) = true := by simp [writeLine]
    rw [writeLines_cons, lines_append writable.1.feed_not_mem, List.filter_cons, if_pos there,
      List.mapM_cons, parseLine_writeLine writable.1.key.1, ih writable.2]
    rfl

/-- The entries of a written block are those it was written from, but for blanks around values. -/
theorem parse_write (writable : ∀ entry ∈ entries, Writable entry) (rest : Bytes) :
    parse (write entries ++ rest) = .ok ⟨entries.map trimmed, (write entries).length⟩ := by
  rw [parse_of_block (block_write writable rest), mapM_writeLines writable, write, length_block]
  rfl

/-- Trimming an entry keeps a value that starts and ends with no blank. -/
theorem Keepable.trimmed (keepable : Keepable entry.2) : trimmed entry = entry := by
  have same : Text.trim entry.2.toList = entry.2.toList :=
    Text.trim_eq_self_iff.2 ⟨keepable.first, fun c last => (keepable.last c last).1⟩
  rw [Metadata.trimmed, same, String.ofList_toList]

theorem Keepable.writable (keepable : Keepable entry.2) (key : IsKey entry.1) : Writable entry :=
  ⟨key, keepable.oneLine, fun last => (keepable.last _ last).2 rfl⟩

/-- The content starts behind the block. -/
theorem contentOffset_of_block {metadata : Metadata} (block : Block text body rest)
    (parsed : parse text = .ok metadata) : metadata.contentOffset = 4 + body.length := by
  rw [parse_of_block block] at parsed
  obtain ⟨entries, -, same⟩ := Outcome.bind_eq_ok.1 parsed
  cases same
  rfl

/-- A block cannot be read exactly if one of its lines has bytes but no colon. -/
theorem parse_eq_error_iff_of_block (block : Block text body rest) :
    (∃ fault, parse text = .error fault) ↔
      ∃ line ∈ body.splitOn 10, line ≠ [] ∧ 58 ∉ line := by
  have read : (∃ fault, parse text = .error fault) ↔
      ∃ fault, ((lines body).filter (· ≠ [])).mapM parseLine = .error fault := by
    rw [parse_of_block block]
    cases ((lines body).filter (· ≠ [])).mapM parseLine with
    | error fault => exact ⟨fun _ => ⟨_, rfl⟩, fun _ => ⟨_, rfl⟩⟩
    | ok entries =>
      constructor
      · rintro ⟨_, ⟨⟩⟩
      · rintro ⟨_, ⟨⟩⟩
  rw [read, mapM_parseLine_eq_error_iff, lines_eq_splitOn]
  simp only [List.mem_filter, decide_eq_true_eq, and_assoc]

end Metadata

namespace FileLog

variable {file : FileLog} {disk : Disk} {number : Revision} {text : Bytes} {metadata : Metadata}

theorem metadata_of_parse (raw : file.toLog.content disk number = .ok text)
    (parsed : Metadata.parse text = .ok metadata) : file.metadata disk number = .ok metadata := by
  rw [FileLog.metadata, raw]
  show (Metadata.parse text).mapError _ = _
  rw [parsed]
  rfl

theorem content_of_parse (raw : file.toLog.content disk number = .ok text)
    (parsed : Metadata.parse text = .ok metadata) :
    file.content disk number = .ok (text.drop metadata.contentOffset) := by
  rw [FileLog.content, raw]
  show ((Metadata.parse text).mapError _ >>= _) = _
  rw [parsed]
  rfl

end FileLog

namespace Metadata

/-- **Reading metadata undoes writing it, and takes exactly one block.** Entries are read back from
the block that holds them, whatever text is behind it, and that text is the content. A text that
is too short or does not start with a marker has no metadata. What is taken as metadata otherwise is
all of the text up to the first marker behind the opening one, and reading fails exactly if there is
no such marker or a line in front of it has bytes but no colon. -/
theorem parse_exact :
    (∀ (entries : List (String × String)) (rest : Bytes),
      (∀ entry ∈ entries, IsKey entry.1 ∧ Keepable entry.2) →
        parse (write entries ++ rest) = .ok ⟨entries, (write entries).length⟩ ∧
          ∀ (file : FileLog) (disk : Disk) (number : Revision),
            file.toLog.content disk number = .ok (write entries ++ rest) →
              file.content disk number = .ok rest) ∧
    ∀ text : Bytes,
      (text.length < 4 ∨ ¬marker <+: text → parse text = .ok ⟨[], 0⟩) ∧
      (∀ metadata : Metadata, parse text = .ok metadata → 0 < metadata.contentOffset →
        4 ≤ metadata.contentOffset ∧ metadata.contentOffset ≤ text.length ∧
          ∃ body rest, Block text body rest ∧
            text.take metadata.contentOffset = marker ++ body ++ marker) ∧
      (4 ≤ text.length → marker <+: text →
        ((∃ fault, parse text = .error fault) ↔
          ¬marker <:+: text.drop 2 ∨
            ∃ body rest, Block text body rest ∧
              ∃ line ∈ body.splitOn 10, line ≠ [] ∧ 58 ∉ line)) := by
  refine ⟨fun entries rest keepable => ?_, fun text => ⟨?_, ?_, ?_⟩⟩
  · have same : entries.map trimmed = entries :=
      (List.map_congr_left fun entry member => (keepable entry member).2.trimmed).trans
        (List.map_id' entries)
    have parsed : parse (write entries ++ rest) = .ok ⟨entries, (write entries).length⟩ := by
      have writable : ∀ entry ∈ entries, Writable entry :=
        fun entry member => (keepable entry member).2.writable (keepable entry member).1
      rw [parse_write writable, same]
    refine ⟨parsed, fun file disk number raw => ?_⟩
    rw [FileLog.content_of_parse raw parsed, List.drop_left]
  · rw [← List.isPrefixOf_iff_prefix]
    exact parse_of_unmarked
  · intro metadata parsed behind
    have marked : ¬(text.length < 4 ∨ ¬marker.isPrefixOf text) := by
      intro unmarked
      rw [parse_of_unmarked unmarked] at parsed
      cases parsed
      exact absurd behind (Nat.lt_irrefl 0)
    rw [not_or, Nat.not_lt, not_not] at marked
    obtain ⟨body, rest, block⟩ | ⟨-, failed⟩ := block_or_error marked.1 marked.2
    · have offset := contentOffset_of_block block parsed
      have whole := block.whole
      rw [← length_block] at offset
      refine ⟨by rw [offset, length_block]; omega, ?_, body, rest, block, ?_⟩
      · rw [offset, whole]
        exact (List.prefix_append _ rest).length_le
      · rw [offset, whole, List.take_left]
    · cases failed.symm.trans parsed
  · intro long starts
    obtain ⟨body, rest, block⟩ | ⟨none, failed⟩ :=
      block_or_error long (List.isPrefixOf_iff_prefix.2 starts)
    · have there : marker <:+: text.drop 2 := ⟨body, rest, by rw [block.whole]; rfl⟩
      constructor
      · exact fun failed => .inr ⟨body, rest, block, (parse_eq_error_iff_of_block block).1 failed⟩
      · rintro (absent | ⟨body, rest, block, line⟩)
        · exact absurd there absent
        · exact (parse_eq_error_iff_of_block block).2 line
    · exact ⟨fun _ => .inl none, fun _ => ⟨_, failed⟩⟩

/-- Two entries, one of them without any text. -/
def twoEntries : List (String × String) := [("copy", "a:b"), ("", "")]

/-- A text with a block of the two entries in front of another marker. -/
def packed : Stored := .ofChunk 0 20 (0x75 :: (write twoEntries ++ [1, 10, 5]))

/-- The two entries are read back and the other marker is part of the content; a short text has no
entries, and a line without a colon cannot be read. -/
theorem parse_exact_twoEntries :
    parse (write twoEntries ++ [1, 10, 5]) = .ok ⟨twoEntries, 17⟩ ∧
      FileLog.content ⟨Log.splitLog [packed], "a"⟩ (Log.splitDisk [packed]) 0 = .ok [1, 10, 5] ∧
      (∃ body rest, Block (write twoEntries ++ [1, 10, 5]) body rest) ∧
      parse [1] = .ok ⟨[], 0⟩ ∧ ∃ fault, parse [1, 10, 97, 10, 1, 10] = .error fault := by
  have keepable : ∀ entry ∈ twoEntries, IsKey entry.1 ∧ Keepable entry.2 := by
    rw [twoEntries, List.forall_mem_cons, List.forall_mem_singleton]
    exact ⟨⟨⟨by simp, by simp⟩, by simp, by simp [Text.isBlank], by simp [Text.isBlank]⟩,
      ⟨by simp, by simp⟩, by simp, by simp, by simp⟩
  have sound : Index.Sound 0 0 [packed] := by decide
  obtain ⟨parsed, content⟩ := parse_exact.1 twoEntries [1, 10, 5] keepable
  have raw := Log.content_split (by decide) sound (n := 0) rfl rfl .marked
  have length : (write twoEntries).length = 17 := by cbv
  rw [length] at parsed
  obtain ⟨-, taken, -⟩ := parse_exact.2 (write twoEntries ++ [1, 10, 5])
  obtain ⟨-, -, body, rest, block, -⟩ := taken _ parsed (by decide)
  have colonless : Block (marker ++ [97, 10] ++ marker ++ []) [97, 10] [] :=
    block_of_findMarker rfl
  exact ⟨parsed, content _ _ _ raw, ⟨body, rest, block⟩,
    (parse_exact.2 [1]).1 (.inl (by decide)), ((parse_exact.2 _).2.2 (by decide) (by decide)).2
      (.inr ⟨[97, 10], [], colonless, [97], by decide, by decide, by decide⟩)⟩

end Metadata

end RevisionLog
