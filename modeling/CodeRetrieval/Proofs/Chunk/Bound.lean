import CodeRetrieval.Chunk.Limits
import CodeRetrieval.Proofs.Text.Lines

set_option autoImplicit false

namespace CodeRetrieval.Chunk

open Text

variable {content marker : String} {most : Nat}

theorem truncate_of_le (h : lineCount content ≤ most) : truncate content most marker = content := by
  rw [← length_lines] at h
  simp only [truncate, if_pos h]

def keptLines (content : String) (most : Nat) : String := unlines ((lines content).take (most - 1))

theorem truncate_of_lt (h : most < lineCount content) :
    truncate content most marker =
      if (keptLines content most).isEmpty then marker
      else keptLines content most ++ "\n" ++ marker := by
  rw [← length_lines] at h
  simp only [truncate, if_neg (Nat.not_le.2 h)]
  rfl

theorem newline_not_mem_take (content : String) (n : Nat) :
    ∀ l ∈ (lines content).take n, '\n' ∉ l.toList := fun _ hl =>
  newline_not_mem_of_mem_lines (List.mem_of_mem_take hl)

theorem count_keptLines (h : (lines content).take (most - 1) ≠ []) :
    (keptLines content most).toList.count '\n' + 1 = min (most - 1) (lineCount content) := by
  have hcount := count_unlines h
  rw [feeds_eq_zero (newline_not_mem_take content (most - 1)), List.length_take,
    length_lines] at hcount
  exact hcount

theorem lineCount_truncate_le (hmost : 1 ≤ most) (hmarker : '\n' ∉ marker.toList) :
    lineCount (truncate content most marker) ≤ most := by
  rcases Nat.lt_or_ge most (lineCount content) with hlong | hshort
  · rw [truncate_of_lt hlong]
    have hcount : marker.toList.count '\n' = 0 := List.count_eq_zero.2 hmarker
    by_cases hkept : keptLines content most = ""
    · rw [if_pos (by simp [hkept]), lineCount, Chars.length_lines, hcount]
      split <;> omega
    · have hkeeps : (lines content).take (most - 1) ≠ [] := fun hnone =>
        hkept (by rw [keptLines, hnone]; rfl)
      have hfeeds := count_keptLines hkeeps
      have hnonempty : ¬(keptLines content most).isEmpty = true := by simpa using hkept
      rw [if_neg hnonempty, lineCount, Chars.length_lines]
      simp only [String.toList_append, List.count_append, hcount]
      have hfeed : "\n".toList.count '\n' = 1 := by decide
      split <;> omega
  · rw [truncate_of_le hshort]
    exact hshort

/-- A text that is cut takes all lines it may, unless nothing of it is left but an empty line. -/
theorem lineCount_truncate (hmost : 1 ≤ most) (h : most < lineCount content)
    (hmarker : '\n' ∉ marker.toList) (hsome : marker ≠ "")
    (hfirst : most = 2 → (lines content).head? ≠ some "") :
    lineCount (truncate content most marker) = most := by
  rw [truncate_of_lt h]
  obtain ⟨first, rest, hlines⟩ := List.exists_cons_of_length_pos (l := lines content)
    (by rw [length_lines]; omega)
  by_cases hone : most = 1
  · have hkept : keptLines content most = "" := by simp [keptLines, hone, unlines]
    rw [if_pos (by simp [hkept]), lineCount_of_not_mem hmarker hsome, hone]
  · have hkeeps : (lines content).take (most - 1) ≠ [] := by
      simp [hlines]
      omega
    have hfeeds := count_keptLines hkeeps
    have hkept : keptLines content most ≠ "" := by
      intro hempty
      rw [hempty] at hfeeds
      have htwo : most = 2 := by
        simp at hfeeds
        omega
      rw [keptLines, htwo, hlines] at hempty
      exact hfirst htwo (by simpa [hlines, unlines] using hempty)
    rw [if_neg (by simpa using hkept), lineCount_concat _ hmarker hsome]
    omega

theorem getLast?_lines_truncate (h : most < lineCount content) (hmarker : '\n' ∉ marker.toList)
    (hsome : marker ≠ "") : (lines (truncate content most marker)).getLast? = some marker := by
  rw [truncate_of_lt h]
  by_cases hkept : (keptLines content most).isEmpty = true
  · rw [if_pos hkept, lines_of_not_mem hmarker hsome]
    rfl
  · rw [if_neg hkept]
    exact getLast?_lines_concat _ hmarker hsome

def IsMarker (marker : String) : Prop := marker = codeMarker ∨ marker = docMarker

theorem IsMarker.plain (h : IsMarker marker) : '\n' ∉ marker.toList ∧ marker ≠ "" := by
  rcases h with rfl | rfl <;> decide

theorem isTruncated_truncate (h : most < lineCount content) (hmarker : IsMarker marker) :
    isTruncated (truncate content most marker) = true := by
  have hlast := getLast?_lines_truncate h hmarker.plain.1 hmarker.plain.2
  rw [isTruncated, hlast]
  rcases hmarker with rfl | rfl <;> decide

theorem exists_bound_iff {limits : ChunkLimits} :
    (∃ text, bound limits content marker = some text) ↔
      limits.minChunkLines ≤ lineCount content := by
  simp [bound]

theorem eq_truncate_of_bound {limits : ChunkLimits} {text : String}
    (h : bound limits content marker = some text) :
    text = truncate content limits.maxChunkLines marker := by
  obtain ⟨_, htext⟩ := Option.ite_none_left_eq_some.1 h
  exact (Option.some.inj htext).symm

theorem isTruncated_of_bound {limits : ChunkLimits} {text : String}
    (h : bound limits content marker = some text)
    (hlong : limits.maxChunkLines < lineCount content) (hmarker : IsMarker marker) :
    isTruncated text = true := by
  rw [eq_truncate_of_bound h]
  exact isTruncated_truncate hlong hmarker

/-- At most as many lines as the limits allow, and as many as they ask for unless it was cut. -/
structure Fits (limits : ChunkLimits) (text : String) : Prop where
  le_max : lineCount text ≤ limits.maxChunkLines
  min_le : limits.minChunkLines ≤ lineCount text ∨ isTruncated text = true

theorem fits_of_bound {limits : ChunkLimits} {text : String} (hmax : 1 ≤ limits.maxChunkLines)
    (hmarker : IsMarker marker) (h : bound limits content marker = some text) :
    Fits limits text := by
  have hmin := exists_bound_iff.1 ⟨text, h⟩
  rw [eq_truncate_of_bound h]
  refine ⟨lineCount_truncate_le hmax hmarker.plain.1, ?_⟩
  rcases Nat.lt_or_ge limits.maxChunkLines (lineCount content) with hlong | hshort
  · exact .inr (isTruncated_truncate hlong hmarker)
  · rw [truncate_of_le hshort]
    exact .inl hmin

end CodeRetrieval.Chunk
