import CodeRetrieval.Proofs.Chunk.Bound
import CodeRetrieval.Proofs.Text.Words

set_option autoImplicit false

namespace CodeRetrieval

namespace Text

theorem return_not_mem_of_mem_lines {s line : String} (hs : '\r' ∉ s.toList)
    (h : line ∈ lines s) : '\r' ∉ line.toList := by
  obtain ⟨cs, hcs, rfl⟩ := List.mem_map.1 h
  obtain ⟨piece, hpiece, hfront⟩ := Chars.exists_piece_of_mem_lines hcs
  obtain ⟨lead, rest, hparts, -⟩ := Chars.exists_bounds_of_mem_splitBy hpiece
  rw [String.toList_ofList]
  intro hmem
  refine hs ?_
  rw [hparts]
  exact List.mem_append_right _ (List.mem_append_left _ (hfront.mem hmem))

theorem unlines_eq_empty_iff {ls : List String} : unlines ls = "" ↔ ls = [] ∨ ls = [""] := by
  constructor
  · intro h
    match ls with
    | [] => exact .inl rfl
    | [l] =>
      rw [unlines, String.intercalate_singleton] at h
      rw [h]
      exact .inr rfl
    | l :: m :: rest =>
      have hcount := count_unlines (List.cons_ne_nil l (m :: rest))
      have hnone : "".toList.count '\n' = 0 := rfl
      rw [h, hnone, List.length_cons, List.length_cons] at hcount
      omega
  · rintro (rfl | rfl) <;> rfl

end Text

namespace Chunk

open Text

variable {content marker : String} {most : Nat}

/-- The lines above the marker. An empty line does not stay alone. -/
def leadingLines (content : String) (most : Nat) : List String :=
  if most = 2 ∧ (lines content).head? = some "" then [] else (lines content).take (most - 1)

theorem mem_lines_of_mem_leadingLines {l : String} (h : l ∈ leadingLines content most) :
    l ∈ lines content := by
  unfold leadingLines at h
  split at h
  · cases h
  · exact List.mem_of_mem_take h

theorem length_leadingLines_le (content : String) (most : Nat) :
    (leadingLines content most).length ≤ most - 1 := by
  unfold leadingLines
  split
  · exact Nat.zero_le _
  · exact List.length_take_le _ _

theorem keptLines_eq_empty_iff (h : most < lineCount content) :
    keptLines content most = "" ↔ leadingLines content most = [] := by
  obtain ⟨first, rest, hlines⟩ := List.exists_cons_of_length_pos (l := lines content)
    (by rw [length_lines]; omega)
  rw [← length_lines, hlines, List.length_cons] at h
  rw [keptLines, unlines_eq_empty_iff, leadingLines, hlines]
  -- Only a line that is kept alone may be empty without a trace.
  rcases most with _ | _ | _ | most
  · simp
  · simp
  · simp
  · obtain ⟨second, rest, rfl⟩ := List.exists_cons_of_length_pos (l := rest) (by omega)
    simp

theorem truncate_eq_unlines (h : most < lineCount content) :
    truncate content most marker = unlines (leadingLines content most ++ [marker]) := by
  have hkept := keptLines_eq_empty_iff h
  rw [truncate_of_lt h]
  by_cases hnone : leadingLines content most = []
  · rw [if_pos (String.isEmpty_iff.2 (hkept.2 hnone)), hnone, List.nil_append, unlines,
      String.intercalate_singleton]
  · have hleading : leadingLines content most = (lines content).take (most - 1) :=
      if_neg fun hempty => hnone (if_pos hempty)
    rw [if_neg fun hempty => hnone (hkept.1 (String.isEmpty_iff.1 hempty)), unlines_concat hnone,
      hleading, keptLines]

theorem lines_truncate (hreturn : '\r' ∉ content.toList) (hmarker : '\n' ∉ marker.toList)
    (hsome : marker ≠ "") (h : most < lineCount content) :
    lines (truncate content most marker) = leadingLines content most ++ [marker] := by
  rw [truncate_eq_unlines h]
  refine lines_unlines_concat (fun l hl => ?_) hmarker hsome
  have hmem := mem_lines_of_mem_leadingLines hl
  exact ⟨newline_not_mem_of_mem_lines hmem, return_not_mem_of_mem_lines hreturn hmem⟩

theorem truncate_truncate (hmarker : '\n' ∉ marker.toList) (hsome : marker ≠ "") :
    truncate (truncate content most marker) most marker = truncate content most marker := by
  rcases Nat.eq_zero_or_pos most with rfl | hmost
  · rcases Nat.eq_zero_or_pos (lineCount content) with hnone | hlong
    · have hle : lineCount content ≤ 0 := Nat.le_of_eq hnone
      rw [truncate_of_le hle, truncate_of_le hle]
    · -- Not even the marker may stay, and it takes its own place.
      have hcut (s : String) (hs : 0 < lineCount s) : truncate s 0 marker = marker := by
        rw [truncate_of_lt hs]
        rfl
      have hmarkerLong : 0 < lineCount marker := by
        rw [lineCount_of_not_mem hmarker hsome]
        exact Nat.one_pos
      rw [hcut content hlong, hcut marker hmarkerLong]
  · exact truncate_of_le (lineCount_truncate_le hmost hmarker)

/-- What a text that is too long becomes: its first lines, and the marker below them. -/
structure CutTo (content marker : String) (most : Nat) (text : String) : Prop where
  lineCount_le : lineCount text ≤ max 1 most
  last : (lines text).getLast? = some marker
  leading : (lines text).dropLast = leadingLines content most

theorem cutTo_truncate (hreturn : '\r' ∉ content.toList) (hmarker : '\n' ∉ marker.toList)
    (hsome : marker ≠ "") (h : most < lineCount content) :
    CutTo content marker most (truncate content most marker) := by
  have hlines := lines_truncate hreturn hmarker hsome h
  have hlength := length_leadingLines_le content most
  refine ⟨?_, ?_, ?_⟩
  · rw [← length_lines, hlines, List.length_append, List.length_singleton]
    omega
  · rw [hlines, List.getLast?_concat]
  · rw [hlines, List.dropLast_concat]

/-- A text that is short enough stays as it is; one that is too long keeps its first lines, with
the marker below them. Either way nothing is left to cut. -/
theorem truncate_keeps_leading (content marker : String) (most : Nat)
    (hreturn : '\r' ∉ content.toList) (hmarker : '\n' ∉ marker.toList) (hsome : marker ≠ "") :
    let text := truncate content most marker
    (lineCount content ≤ most → text = content) ∧
      (most < lineCount content → CutTo content marker most text) ∧
      truncate text most marker = text :=
  ⟨truncate_of_le, cutTo_truncate hreturn hmarker hsome, truncate_truncate hmarker hsome⟩

theorem truncate_keeps_leading_note :
    let note := "\nRefunds are issued\nto the card.\n"
    truncate note 1 docMarker = docMarker ∧ truncate note 2 docMarker = docMarker ∧
      CutTo note docMarker 2 (truncate note 2 docMarker) ∧
      truncate (truncate note 2 docMarker) 2 docMarker = truncate note 2 docMarker ∧
      truncate note 3 docMarker = note := by
  intro note
  have hnote : '\r' ∉ note.toList := by decide
  have hkeeps (most : Nat) :=
    truncate_keeps_leading note docMarker most hnote (by decide) (by decide)
  exact ⟨by decide, by decide, (hkeeps 2).2.1 (by decide), (hkeeps 2).2.2,
    (hkeeps 3).1 (by decide)⟩

end Chunk

end CodeRetrieval
