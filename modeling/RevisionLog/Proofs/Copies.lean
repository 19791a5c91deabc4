import Mathlib
import RevisionLog.Proofs.Metadata

/-!
# Copies

The text of a copied revision starts with a block of two lines: the path of the source and the id of
its revision. `FileLog.copySource` gives the path back without the blanks around it, and a path that
ends in the first byte of a marker makes one of the line feed behind it. So a copy is read back
exactly if its path is `Metadata.Keepable` (`FileLog.copy_kept_iff`).
-/

namespace RevisionLog

namespace Metadata

/-- The entries of a revision that was copied from a path, where it was the revision `node`. -/
def ofCopy (source : String) (node : NodeId) : List (String × String) :=
  [("copy", source), ("copyrev", Hex.toString node.toHex)]

variable {source : String} {node : NodeId} {entry : String × String}

/-- The digits of an id come back from a line. -/
theorem keepable_toHex (node : NodeId) : Keepable (Hex.toString node.toHex) := by
  have digits : ∀ c ∈ (Hex.toString node.toHex).toList, 48 ≤ c.toNat ∧ c.toNat < 128 := by
    intro c member
    rw [Hex.toString, String.toList_ofList, List.mem_map] at member
    obtain ⟨b, digit, rfl⟩ := member
    have bounds := Hex.bounds_of_mem_encode digit
    rwa [Char.toNat_ofNat, if_pos (.inl (by omega))]
  have unblank : ∀ c ∈ (Hex.toString node.toHex).toList, ¬Text.isBlank c := by
    intro c member
    have bounds := digits c member
    simp only [Text.isBlank, Bool.or_eq_true, Bool.and_eq_true, decide_eq_true_eq]
    omega
  refine ⟨fun feed => ?_, fun c first => unblank c (List.mem_of_head? first), fun c last => ?_⟩
  · exact absurd (digits _ feed).1 (by decide)
  · have member := List.mem_of_getLast? last
    refine ⟨unblank c member, ?_⟩
    rintro rfl
    exact absurd (digits _ member).1 (by decide)

/-- The digits of the id are found among the entries that are read back. -/
theorem copyRevision_trimmed (source : String) (node : NodeId) (offset : Nat) :
    copyRevision ⟨(ofCopy source node).map trimmed, offset⟩ = some (Hex.toString node.toHex) := by
  let entry := ("copyrev", Hex.toString node.toHex)
  have digits : trimmed entry = entry := (keepable_toHex node).trimmed
  have other : ("copyrev" == (trimmed ("copy", source)).1) = false :=
    (by decide : ("copyrev" == "copy") = false)
  rw [copyRevision, get?, ofCopy, List.map_cons, List.map_cons, digits, List.lookup_cons, other]
  exact List.lookup_cons_self

theorem writable_ofCopy (oneLine : '\n' ∉ source.toList)
    (unmarked : source.toList.getLast? ≠ some '\x01') (node : NodeId) :
    ∀ entry ∈ ofCopy source node, Writable entry := by
  rw [ofCopy, List.forall_mem_cons, List.forall_mem_singleton]
  exact ⟨⟨⟨by simp, by simp⟩, oneLine, unmarked⟩, (keepable_toHex node).writable ⟨by simp, by simp⟩⟩

/-- A marker made by the end of the first line closes the block. -/
theorem parse_of_early_marker (key : IsKey entry.1) (value : '\n' ∉ entry.2.toList) (rest : Bytes) :
    parse (marker ++ writeLine entry ++ marker ++ rest) =
      .ok ⟨[trimmed entry], 4 + (writeLine entry).length⟩ := by
  have oneLine : 10 ∉ writeLine entry := feed_not_mem_writeLine key.2 value
  have block : Block (marker ++ writeLine entry ++ marker ++ rest) (writeLine entry) rest := by
    refine block_of_findMarker ?_
    rw [List.append_assoc, findMarker_append oneLine (fun _ => by simp [marker]), Nat.zero_add]
    rfl
  have there : decide (writeLine entry ≠ []) = true := by simp [writeLine]
  have single : lines (writeLine entry) = [writeLine entry] := by
    rw [lines_eq_splitOn, List.splitOn_eq_singleton oneLine]
  rw [parse_of_block block, single, List.filter_cons, if_pos there, List.mapM_cons,
    parseLine_writeLine key.1]
  rfl

/-- A path that ends in the first byte of a marker is cut off by it. -/
theorem write_ofCopy_of_marked {front : List Char} (ends : source.toList = front ++ ['\x01'])
    (node : NodeId) (rest : Bytes) : ∃ behind, write (ofCopy source node) ++ rest =
      marker ++ writeLine ("copy", String.ofList front) ++ marker ++ behind := by
  have bytes : Text.utf8 source = Text.utf8 (String.ofList front) ++ [1] := by
    rw [Text.utf8, ends, List.flatMap_append, Text.utf8, String.toList_ofList]
    rfl
  refine ⟨writeLine ("copyrev", Hex.toString node.toHex) ++ [10] ++ marker ++ rest, ?_⟩
  simp [write, writeLines, ofCopy, writeLine, bytes, marker]

end Metadata

namespace FileLog

variable {file : FileLog} {disk : Disk} {number : Revision} {source : String} {node : NodeId}
  {text : Bytes} {metadata : Metadata}

theorem copySource_of_metadata (read : file.metadata disk number = .ok metadata) :
    file.copySource disk number = .ok metadata.copySource ∧
      file.isCopy disk number = .ok metadata.copySource.isSome := by
  rw [FileLog.copySource, FileLog.isCopy, read]
  exact ⟨rfl, rfl⟩

theorem copyRevision_of_metadata (read : file.metadata disk number = .ok metadata)
    (digits : metadata.copyRevision = some (Hex.toString node.toHex)) :
    file.copyRevision disk number = .ok (some node) := by
  have id : NodeId.ofHex (Text.utf8 (Hex.toString node.toHex)) = .ok node := by
    rw [NodeId.utf8_toHex, NodeId.ofHex_toHex]
  simp only [FileLog.copyRevision, read, bind, Except.bind, digits, id]
  rfl

/-- The path and the id of the source are read back, but for blanks around the path, and the text
behind the block is the content. -/
theorem copy_of_unmarked (oneLine : '\n' ∉ source.toList)
    (unmarked : source.toList.getLast? ≠ some '\x01')
    (raw : file.toLog.content disk number =
      .ok (Metadata.write (Metadata.ofCopy source node) ++ text)) :
    file.isCopy disk number = .ok true ∧
      file.copySource disk number = .ok (some (String.ofList (Text.trim source.toList))) ∧
      file.copyRevision disk number = .ok (some node) ∧ file.content disk number = .ok text := by
  have parsed := Metadata.parse_write (Metadata.writable_ofCopy oneLine unmarked node) text
  have read := metadata_of_parse raw parsed
  obtain ⟨path, copy⟩ := copySource_of_metadata read
  refine ⟨copy, path, copyRevision_of_metadata read (Metadata.copyRevision_trimmed ..), ?_⟩
  rw [content_of_parse raw parsed, List.drop_left]

/-- The id is lost if the path ends in the first byte of a marker. -/
theorem copyRevision_of_marked (oneLine : '\n' ∉ source.toList)
    (marked : source.toList.getLast? = some '\x01')
    (raw : file.toLog.content disk number =
      .ok (Metadata.write (Metadata.ofCopy source node) ++ text)) :
    file.copyRevision disk number = .ok none := by
  obtain ⟨front, ends⟩ := List.getLast?_eq_some_iff.1 marked
  obtain ⟨behind, same⟩ := Metadata.write_ofCopy_of_marked ends node text
  have key : Metadata.IsKey "copy" := ⟨by simp, by simp⟩
  have front : '\n' ∉ (String.ofList front).toList := by
    rw [String.toList_ofList]
    intro member
    exact oneLine (ends ▸ List.mem_append_left _ member)
  rw [same] at raw
  have read := metadata_of_parse raw (Metadata.parse_of_early_marker key front behind)
  rw [FileLog.copyRevision, read]
  rfl

/-- **When copies are read back.** Where the raw content of a revision is what is written for a copy
from a path on one line, all questions about the copy are answered with what was written, and the
content is the text behind it, exactly if the path neither starts nor ends with a blank and does
not end in the first byte of a marker. -/
theorem copy_kept_iff (oneLine : '\n' ∉ source.toList)
    (raw : file.toLog.content disk number =
      .ok (Metadata.write (Metadata.ofCopy source node) ++ text)) :
    (file.isCopy disk number = .ok true ∧ file.copySource disk number = .ok (some source) ∧
        file.copyRevision disk number = .ok (some node) ∧ file.content disk number = .ok text) ↔
      Metadata.Keepable source := by
  by_cases marked : source.toList.getLast? = some '\x01'
  · constructor
    -- Here even the id is lost, which does not depend on the blanks.
    · rintro ⟨-, -, revision, -⟩
      cases revision.symm.trans (copyRevision_of_marked oneLine marked raw)
    · exact fun keepable => absurd rfl (keepable.last _ marked).2
  · obtain ⟨copy, path, revision, content⟩ := copy_of_unmarked oneLine marked raw
    have exact : file.copySource disk number = .ok (some source) ↔
        Text.trim source.toList = source.toList := by
      rw [path, Except.ok.injEq, Option.some.injEq, ← String.toList_inj, String.toList_ofList]
    rw [exact, Text.trim_eq_self_iff]
    constructor
    · rintro ⟨-, ⟨first, last⟩, -, -⟩
      exact ⟨oneLine, first, fun c ends => ⟨last c ends, fun same => marked (same ▸ ends)⟩⟩
    · intro keepable
      exact ⟨copy, ⟨keepable.first, fun c ends => (keepable.last c ends).1⟩, revision, content⟩

/-! ## Three copies -/

/-- The text of a revision that was copied from a path. -/
def copiedText (source : String) : Bytes :=
  Metadata.write (Metadata.ofCopy source .null) ++ [5]

/-- Copies from a path that is kept, from one that ends in a blank and from one that ends in a
marker. -/
def copies : List Stored :=
  [.ofChunk 0 66 (0x75 :: copiedText "a: b"), .ofChunk 1 64 (0x75 :: copiedText "a "),
    .ofChunk 2 64 (0x75 :: copiedText "a\x01")]

/-- The log that holds the copies. -/
def copiesLog : FileLog := ⟨Log.splitLog copies, "a"⟩

/-- Its files. -/
def copiesDisk : Disk := Log.splitDisk copies

set_option maxRecDepth 1000 in
theorem sound_copies : Index.Sound 0 0 copies := by decide

theorem loaded_copies : copiesLog.Loaded copiesDisk :=
  Log.loaded_split (List.cons_ne_nil _ _) (by decide) sound_copies

/-- Each text is read as it was written. -/
theorem raw_copies {n : Nat} {stored : Stored} {source : String} (found : copies[n]? = some stored)
    (base : stored.base.toInt = n) (chunk : stored.chunk = 0x75 :: copiedText source) :
    copiesLog.toLog.content copiesDisk (Int32.ofNat n) = .ok (copiedText source) :=
  Log.content_split (by decide) sound_copies found base (chunk ▸ .marked)

/-- The first copy is read back. -/
theorem copy_kept_iff_colon :
    copiesLog.isCopy copiesDisk 0 = .ok true ∧
      copiesLog.copySource copiesDisk 0 = .ok (some "a: b") ∧
      copiesLog.copyRevision copiesDisk 0 = .ok (some .null) ∧
      copiesLog.content copiesDisk 0 = .ok [5] :=
  (copy_kept_iff (by simp) (raw_copies rfl rfl rfl)).2
    ⟨by simp, by simp [Text.isBlank], by simp [Text.isBlank]⟩

/-- The second copy is said to be from another path, and the third one from no revision. -/
theorem misread_copies :
    copiesLog.Loaded copiesDisk ∧
      copiesLog.toLog.content copiesDisk 1 =
        .ok (Metadata.write (Metadata.ofCopy "a " .null) ++ [5]) ∧
      copiesLog.copySource copiesDisk 1 = .ok (some "a") ∧
      copiesLog.toLog.content copiesDisk 2 =
        .ok (Metadata.write (Metadata.ofCopy "a\x01" .null) ++ [5]) ∧
      copiesLog.copyRevision copiesDisk 2 = .ok none := by
  have second : copiesLog.toLog.content copiesDisk 1 = .ok (copiedText "a ") :=
    raw_copies rfl rfl rfl
  have third : copiesLog.toLog.content copiesDisk 2 = .ok (copiedText "a\x01") :=
    raw_copies rfl rfl rfl
  obtain ⟨-, path, -⟩ := copy_of_unmarked (by simp) (by simp) second
  exact ⟨loaded_copies, second, path, third, copyRevision_of_marked (by simp) (by simp) third⟩

end FileLog

end RevisionLog
