import CodeRetrieval.Proofs.Chunk.Documents
import CodeRetrieval.Proofs.Chunk.Ranges

/-!
Sections of prose. Each is cut from a range of lines and ends with the last one that is not blank;
together they cover all lines of the document that are not blank.
-/

set_option autoImplicit false

namespace CodeRetrieval.Chunk

open Text

variable {ls : List String} {first stop low : Nat} {title : String} {s : Section}
  {sections : List Section} {ranges : List (Nat × Nat)}

def rangeText (ls : List String) (first stop : Nat) : String :=
  trimEnd (unlines ((ls.drop first).take (stop - first)))

theorem sectionOf?_eq : sectionOf? ls first stop title =
    if isBlankText (rangeText ls first stop) then none
    else some ⟨title, rangeText ls first stop, first + 1,
      first + max 1 (lineCount (rangeText ls first stop))⟩ :=
  rfl

theorem bareLines_rangeText (hls : ∀ l ∈ ls, '\n' ∉ l.toList) (first stop : Nat) :
    bareLines (rangeText ls first stop) =
      (((ls.map trimEnd).drop first).take (stop - first)).rdropWhile (· == "") := by
  rw [rangeText, bareLines_unlines fun l hl =>
    hls l (List.mem_of_mem_drop (List.mem_of_mem_take hl)), List.map_take, List.map_drop]

theorem isBlankText_rangeText :
    isBlankText (rangeText ls first stop) = true ↔ bareLines (rangeText ls first stop) = [] := by
  rw [isBlankText_iff, bareLines_eq_nil_iff, rangeText, trimEnd_trimEnd]

theorem getD_range {bare : List String} {i : Nat} (hi : first ≤ i) (hstop : i < stop) :
    ((bare.drop first).take (stop - first)).getD (i - first) "" = bare.getD i "" := by
  have hlt : i - first < stop - first := by omega
  rw [List.getD_eq_getElem?_getD, List.getElem?_take_of_lt hlt, List.getElem?_drop,
    Nat.add_sub_cancel' hi, List.getD_eq_getElem?_getD]

theorem blankAt_of_length_le (hls : ∀ l ∈ ls, '\n' ∉ l.toList) (first stop : Nat) :
    ∀ i, first + lineCount (rangeText ls first stop) ≤ i → i < stop →
      BlankAt (ls.map trimEnd) i := by
  intro i hi hstop
  have hlength := congrArg List.length (bareLines_rangeText hls first stop)
  have hfirst : first ≤ i := by omega
  rw [length_bareLines] at hlength
  rw [BlankAt, ← getD_range hfirst hstop, ← getD_rdropWhile]
  exact List.getD_eq_default _ _ (by omega)

theorem blankAt_of_sectionOf? (hls : ∀ l ∈ ls, '\n' ∉ l.toList)
    (h : sectionOf? ls first stop title = none) :
    ∀ i, first ≤ i → i < stop → BlankAt (ls.map trimEnd) i := by
  intro i hi hstop
  rw [sectionOf?_eq] at h
  split at h
  · next hblank =>
    refine blankAt_of_length_le hls first stop i ?_ hstop
    rw [← length_bareLines, isBlankText_rangeText.1 hblank]
    exact hi
  · cases h

/-- A section stands for the lines of a range up to the last one that is not blank. -/
structure Section.Fills (ls : List String) (first stop : Nat) (s : Section) : Prop where
  start : s.startLine = first + 1
  pos : first < s.endLine
  le_stop : s.endLine ≤ stop
  le_length : s.endLine ≤ ls.length
  behind : ∀ i, s.endLine ≤ i → i < stop → BlankAt (ls.map trimEnd) i
  text : bareLines s.text = ((ls.map trimEnd).drop first).take (s.endLine - first)

theorem fills_of_sectionOf? (hls : ∀ l ∈ ls, '\n' ∉ l.toList)
    (h : sectionOf? ls first stop title = some s) : s.Fills ls first stop := by
  have hlength := (lines_of_sectionOf? hls h).le_length
  rw [sectionOf?_eq] at h
  split at h
  · cases h
  · next hblank =>
    cases h
    have hbare := bareLines_rangeText hls first stop
    have hsome : 0 < lineCount (rangeText ls first stop) := by
      rw [← length_bareLines, List.length_pos_iff]
      exact fun hnone => hblank (isBlankText_rangeText.2 hnone)
    -- What is not blank has a line, so the maximum with one makes no difference.
    have hlast : first + max 1 (lineCount (rangeText ls first stop)) =
        first + lineCount (rangeText ls first stop) := by
      rw [Nat.max_eq_right hsome]
    have hle : lineCount (rangeText ls first stop) ≤ stop - first := by
      rw [← length_bareLines, hbare]
      exact (List.rdropWhile_prefix _ _).length_le.trans (List.length_take_le _ _)
    have htake : bareLines (rangeText ls first stop) =
        ((ls.map trimEnd).drop first).take (lineCount (rangeText ls first stop)) := by
      have htake := rdropWhile_eq_take (p := (· == ""))
        (((ls.map trimEnd).drop first).take (stop - first))
      rwa [← hbare, length_bareLines, List.take_take, Nat.min_eq_left hle] at htake
    simp only [hlast] at hlength ⊢
    refine ⟨rfl, ?_, ?_, hlength, blankAt_of_length_le hls first stop, ?_⟩
    · dsimp only
      omega
    · dsimp only
      omega
    · dsimp only
      rw [Nat.add_sub_cancel_left, htake]

/-- Sections that are cut from ranges of lines, in their order. A blank range gives none. -/
inductive CutAt (ls : List String) : List (Nat × Nat) → List Section → Prop where
  | nil : CutAt ls [] []
  | cons {first stop : Nat} {ranges : List (Nat × Nat)} {sections : List Section} (title : String)
      (later : CutAt ls ranges sections) :
      CutAt ls ((first, stop) :: ranges) ((sectionOf? ls first stop title).toList ++ sections)

theorem CutAt.fills (hls : ∀ l ∈ ls, '\n' ∉ l.toList) (h : CutAt ls ranges sections) :
    ∀ s ∈ sections, ∃ r ∈ ranges, s.Fills ls r.1 r.2 := by
  induction h with
  | nil => simp
  | @cons first stop ranges sections title later ih =>
    intro s hs
    rcases List.mem_append.1 hs with hs | hs
    · exact ⟨(first, stop), List.mem_cons_self, fills_of_sectionOf? hls (Option.mem_toList.1 hs)⟩
    · obtain ⟨r, hr, hfills⟩ := ih s hs
      exact ⟨r, List.mem_cons_of_mem _ hr, hfills⟩

def Section.range (s : Section) : Nat × Nat := (s.startLine - 1, s.endLine)

theorem CutAt.covers (hls : ∀ l ∈ ls, '\n' ∉ l.toList) (h : CutAt ls ranges sections)
    (hcovers : Covers (ls.map trimEnd) low ranges) :
    Covers (ls.map trimEnd) low (sections.map Section.range) := by
  induction h generalizing low with
  | nil => exact hcovers
  | @cons first stop ranges sections title later ih =>
    cases hcovers with
    | cons behind pos between hlater =>
      cases hs : sectionOf? ls first stop title with
      | none =>
        have hblank := blankAt_of_sectionOf? hls hs
        exact ((ih hlater).lowered pos.le hblank).lowered behind between
      | some s =>
        have hfills := fills_of_sectionOf? hls hs
        have hrest := (ih hlater).lowered hfills.le_stop hfills.behind
        have hrange : s.range = (first, s.endLine) := by
          rw [Section.range, hfills.start, Nat.add_sub_cancel]
        simp only [Option.toList_some, List.cons_append, List.nil_append, List.map_cons, hrange]
        exact .cons behind hfills.pos between hrest

theorem cutAt_filterMap (ls : List String) (title : Nat → String) (ranges : List (Nat × Nat))
    (n : Nat) : CutAt ls ranges
      ((ranges.zipIdx n).filterMap fun ((s, e), i) => sectionOf? ls s e (title i)) := by
  induction ranges generalizing n with
  | nil => exact .nil
  | cons r ranges ih =>
    have hcut : CutAt ls (r :: ranges) _ := .cons (title n) (ih (n + 1))
    rw [List.zipIdx_cons, List.filterMap_cons]
    cases hs : sectionOf? ls r.1 r.2 (title n) with
    | none => simpa [hs] using hcut
    | some s => simpa [hs] using hcut

theorem cutAt_paragraphSections (most : Nat) (ls : List String) :
    CutAt ls (groups most (paragraphsFrom none 0 ls)) (paragraphSections most ls) :=
  cutAt_filterMap ls (fun i => s!"part {i + 1}") _ 0

theorem cutAt_headerSections (ls : List String) (headers : List Header) :
    CutAt ls (headerRanges ls.length headers) (headerSections ls headers) := by
  induction headers with
  | nil => exact .nil
  | cons h headers ih =>
    cases headers with
    | nil => simpa [headerSections, headerRanges] using CutAt.cons h.title CutAt.nil
    | cons next headers => exact .cons h.title ih

theorem exists_cutAt_markdown (most : Nat) (ls : List String) :
    ∃ ranges, CutAt ls ranges (markdownSections most ls) ∧ Covers (ls.map trimEnd) 0 ranges := by
  simp only [markdownSections]
  split
  · exact ⟨_, cutAt_paragraphSections most ls, (covers_paragraphs ls).groups⟩
  · next top htop =>
    have hsome : ((headersFrom false 0 ls).filter (·.level == top)) ≠ [] := by
      obtain ⟨h, hh, hlevel⟩ := List.mem_map.1 (List.min?_mem htop)
      exact List.ne_nil_of_mem (List.mem_filter.2 ⟨hh, by simp [hlevel]⟩)
    have hsorted := (pairwise_headersFrom false 0 ls).filter (·.level == top)
    have hlines : ∀ h ∈ (headersFrom false 0 ls).filter (·.level == top), h.line < ls.length := by
      intro h hh
      simpa using (lines_of_mem_headersFrom false 0 ls h (List.mem_of_mem_filter hh)).2
    generalize (headersFrom false 0 ls).filter (·.level == top) = tops at hsome hsorted hlines
    obtain ⟨h, rest, rfl⟩ := List.exists_cons_of_ne_nil hsome
    have hcovers := covers_headerRanges (ls.map trimEnd) hsorted (by simpa using hlines)
    rw [List.length_map] at hcovers
    have hcut := cutAt_headerSections ls (h :: rest)
    by_cases hintro : 0 < h.line
    · refine ⟨(0, h.line) :: headerRanges ls.length (h :: rest), ?_,
        .cons le_rfl hintro (fun i _ _ => by omega) hcovers⟩
      simpa [hintro] using CutAt.cons "intro" hcut
    · refine ⟨_, by simpa [hintro] using hcut, ?_⟩
      rwa [Nat.eq_zero_of_not_pos hintro] at hcovers

theorem exists_cutAt (format : ProseFormat) (most : Nat) (body : String) :
    ∃ ranges, CutAt (lines body) ranges (proseSections format most body) ∧
      Covers (bareLines body) 0 ranges := by
  cases format with
  | markdown => exact exists_cutAt_markdown most (lines body)
  | text => exact ⟨_, cutAt_paragraphSections most _, (covers_paragraphs _).groups⟩
  | rst => exact ⟨_, cutAt_paragraphSections most _, (covers_paragraphs _).groups⟩

end CodeRetrieval.Chunk
