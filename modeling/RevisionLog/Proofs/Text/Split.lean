import Mathlib

/-!
# Splitting texts

The parts of a text between the occurrences of a character are those of the list of its characters
(`Text.splitOn_singleton`), so what is known of splitting and joining lists holds of texts.
-/

namespace RevisionLog.Text

open String

/-- By induction on what is behind the part of the text that has been read. -/
theorem splitOnAux_singleton (separator : Char) (front part behind : List Char)
    (found : List String) :
    (ofList (front ++ part ++ behind)).splitOnAux (singleton separator) ⟨utf8Len front⟩
        ⟨utf8Len front + utf8Len part⟩ 0 found =
      found.reverse ++ (List.splitOnPPrepend (· == separator) behind part.reverse).map ofList := by
  induction behind generalizing front part found with
  | nil =>
    have ended := (atEnd_of_valid (front ++ part) []).2 rfl
    rw [utf8Len_append] at ended
    rw [splitOnAux, if_pos ended, extract_of_valid front part []]
    simp
  | cons c behind ih =>
    have onward : ¬Pos.Raw.atEnd (ofList (front ++ part ++ c :: behind))
        ⟨utf8Len front + utf8Len part⟩ = true := by
      rw [← utf8Len_append, atEnd_of_valid]
      exact List.cons_ne_nil _ _
    have here : Pos.Raw.get (ofList (front ++ part ++ c :: behind))
        ⟨utf8Len front + utf8Len part⟩ = c := by
      rw [← utf8Len_append, get_of_valid]
      rfl
    have next : Pos.Raw.next (ofList (front ++ part ++ c :: behind))
        ⟨utf8Len front + utf8Len part⟩ = ⟨utf8Len front + utf8Len part + c.utf8Size⟩ := by
      rw [← utf8Len_append, next_of_valid]
    have mark : Pos.Raw.get (singleton separator) 0 = separator := get_of_valid [] [separator]
    have markNext : Pos.Raw.next (singleton separator) 0 = ⟨separator.utf8Size⟩ := by
      simpa using next_of_valid [] separator []
    have markEnd : Pos.Raw.atEnd (singleton separator) ⟨separator.utf8Size⟩ = true := by
      simpa using (atEnd_of_valid [separator] []).2 rfl
    rw [splitOnAux, if_neg onward, here, mark]
    dsimp only
    rw [markNext, if_pos markEnd, next, List.splitOnPPrepend_cons_eq_if]
    split
    · rename_i same
      obtain rfl := beq_iff_eq.1 same
      have back : Pos.Raw.unoffsetBy ⟨utf8Len front + utf8Len part + c.utf8Size⟩ ⟨c.utf8Size⟩ =
          ⟨utf8Len front + utf8Len part⟩ := by
        simp [Pos.Raw.unoffsetBy]
      rw [back, extract_of_valid front part (c :: behind)]
      have rest := ih (front ++ part ++ [c]) [] (ofList part :: found)
      simp [Nat.add_assoc] at rest ⊢
      exact rest
    · have still : Pos.Raw.next (ofList (front ++ part ++ c :: behind))
          (Pos.Raw.unoffsetBy ⟨utf8Len front + utf8Len part⟩ 0) =
            ⟨utf8Len front + utf8Len part + c.utf8Size⟩ := by
        rw [← next]
        simp [Pos.Raw.unoffsetBy]
      have rest := ih front (part ++ [c]) found
      rw [still]
      simp [Nat.add_assoc] at rest ⊢
      exact rest

/-- **Splitting a text at a character splits the list of its characters.** -/
theorem splitOn_singleton (text : String) (separator : Char) :
    text.splitOn (singleton separator) = (text.toList.splitOn separator).map ofList := by
  have some : (singleton separator == "") = false := by simp
  have parts := splitOnAux_singleton separator [] [] text.toList []
  rw [splitOn, some]
  simpa [List.splitOn_eq_splitOnP] using parts

theorem not_mem_of_mem_splitOn_list {separator : Char} {chars part : List Char}
    (among : part ∈ chars.splitOn separator) : separator ∉ part := by
  induction chars generalizing part with
  | nil =>
    obtain rfl : part = [] := by simpa using among
    exact List.not_mem_nil
  | cons c chars ih =>
    rw [List.splitOn_cons_eq_if_modifyHead] at among
    split at among
    · obtain rfl | among := List.mem_cons.1 among
      · exact List.not_mem_nil
      · exact ih among
    · rename_i other
      obtain ⟨first, rest, parts⟩ := List.exists_cons_of_ne_nil (List.splitOn_ne_nil _ chars)
      rw [parts] at among ih
      obtain rfl | among := List.mem_cons.1 among
      · have distinct : separator ≠ c := fun same => other (by simp [same])
        simpa [distinct] using ih List.mem_cons_self
      · exact ih (List.mem_cons_of_mem first among)

/-- No part of a split text has the character at which it was split. -/
theorem not_mem_of_mem_splitOn {text part : String} {separator : Char}
    (among : part ∈ text.splitOn (singleton separator)) : separator ∉ part.toList := by
  rw [splitOn_singleton] at among
  obtain ⟨chars, inside, rfl⟩ := List.mem_map.1 among
  rw [toList_ofList]
  exact not_mem_of_mem_splitOn_list inside

/-- A text that is put together from parts without a character splits into them again. -/
theorem splitOn_intercalate {parts : List String} {separator : Char} (some : parts ≠ [])
    (clean : ∀ part ∈ parts, separator ∉ part.toList) :
    ((singleton separator).intercalate parts).splitOn (singleton separator) = parts := by
  have chars : ∀ part ∈ parts.map String.toList, separator ∉ part := by
    simpa using clean
  rw [splitOn_singleton, toList_intercalate, toList_singleton,
    List.splitOn_intercalate separator chars (by simpa using some), List.map_map]
  simp

/-- What comes behind an occurrence of the character is split on its own. -/
theorem splitOn_append (front back : String) (separator : Char) :
    (front ++ singleton separator ++ back).splitOn (singleton separator) =
      front.splitOn (singleton separator) ++ back.splitOn (singleton separator) := by
  simp only [splitOn_singleton, toList_append, toList_singleton, List.append_assoc,
    List.singleton_append, List.splitOn_append_cons_self, List.map_append]

end RevisionLog.Text
