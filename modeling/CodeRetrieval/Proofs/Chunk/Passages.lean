import CodeRetrieval.Proofs.Chunk.Origin
import CodeRetrieval.Proofs.Chunk.Sections

set_option autoImplicit false

namespace CodeRetrieval.Chunk

open Text

variable {limits : ChunkLimits} {known : KnownNames} {path text : String} {format : ProseFormat}
  {a : Artifact} {f : Fragment}

def passages (fs : List Fragment) : List Fragment := fs.filter (·.kind == .proseSection)

/-- The lines of a text that a fragment stands for. -/
def ownLines (text : String) (f : Fragment) : List String :=
  ((lines text).drop (f.startLine - 1)).take (f.endLine + 1 - f.startLine)

/-- The lines of a fragment as a range. -/
def fragmentRange (f : Fragment) : Nat × Nat := (f.startLine - 1, f.endLine)

/-- Fragments that divide the lines of a text. -/
structure Divides (limits : ChunkLimits) (text : String) (fs : List Fragment) : Prop where
  lines : ∀ f ∈ fs, LinesOf (lineCount text) f.startLine f.endLine
  increasing : fs.Pairwise fun f g => f.endLine < g.startLine
  once : ∀ i (hi : i < (Text.lines text).length), isBlankText (Text.lines text)[i] = false →
    fs.countP (fun f => f.startLine ≤ i + 1 && i + 1 ≤ f.endLine) = 1
  content : ∀ f ∈ fs,
    isTruncated f.content = false ∨ (ownLines text f).length ≤ limits.maxChunkLines →
      bareLines f.content = (ownLines text f).map trimEnd

theorem passages_ofProse (hlong : limits.maxChunkLines < lineCount (trimEnd text)) :
    passages (ofProse limits known path format text) =
      (proseSections format limits.maxChunkLines (trimEnd text)).zipIdx.filterMap fun (s, i) =>
        ofProseSection limits known path format s i := by
  have hshort : ¬max 1 (lineCount (trimEnd text)) ≤ limits.maxChunkLines := by omega
  simp only [ofProse, if_neg hshort, passages, List.filter_append]
  have hwhole : (ofProseWhole limits known path format (trimEnd text)).toList.filter
      (·.kind == .proseSection) = [] := by
    cases h : ofProseWhole limits known path format (trimEnd text) with
    | none => rfl
    | some f =>
      obtain ⟨content, _, rfl⟩ := Option.map_eq_some_iff.1 h
      rfl
  rw [hwhole, List.nil_append, List.filter_eq_self]
  intro f hf
  obtain ⟨_, _, h⟩ := List.mem_filterMap.1 hf
  obtain ⟨content, _, rfl⟩ := Option.map_eq_some_iff.1 h
  rfl

/-- What a fragment has of the section that it is made of. -/
structure FromSection (limits : ChunkLimits) (s : Section) (f : Fragment) : Prop where
  start : f.startLine = s.startLine
  last : f.endLine = s.endLine
  content : f.content = truncate s.text limits.maxChunkLines docMarker

theorem fromSection_of_ofProseSection {s : Section} {i : Nat}
    (h : ofProseSection limits known path format s i = some f) : FromSection limits s f := by
  obtain ⟨content, hbound, rfl⟩ := Option.map_eq_some_iff.1 h
  exact ⟨rfl, rfl, eq_truncate_of_bound hbound⟩

theorem map_fragmentRange (sections : List Section) (n : Nat)
    (hmin : ∀ s ∈ sections, limits.minChunkLines ≤ lineCount s.text) :
    ((sections.zipIdx n).filterMap fun (s, i) =>
      ofProseSection limits known path format s i).map fragmentRange =
        sections.map Section.range := by
  induction sections generalizing n with
  | nil => rfl
  | cons s sections ih =>
    have hlater := ih (n + 1) fun t ht => hmin t (List.mem_cons_of_mem s ht)
    have hsome : (ofProseSection limits known path format s n).isSome = true := by
      have hlong := Nat.not_lt.2 (hmin s List.mem_cons_self)
      simp [ofProseSection, bound, hlong]
    obtain ⟨f, hf⟩ := Option.isSome_iff_exists.1 hsome
    have hfrom := fromSection_of_ofProseSection hf
    simp [List.zipIdx_cons, hf, hlater, fragmentRange, Section.range, hfrom.start, hfrom.last]

theorem blankAt_bareLines_trimEnd {i : Nat} :
    BlankAt (bareLines (trimEnd text)) i ↔ BlankAt (bareLines text) i := by
  rw [BlankAt, bareLines_trimEnd, getD_rdropWhile, BlankAt]

theorem prefix_bareLines_trimEnd (text : String) :
    bareLines (trimEnd text) <+: bareLines text := by
  rw [bareLines_trimEnd]
  exact List.rdropWhile_prefix _ _

theorem take_drop_of_prefix {xs ys : List String} {m n : Nat} (h : xs <+: ys)
    (hn : m + n ≤ xs.length) : (xs.drop m).take n = (ys.drop m).take n := by
  obtain ⟨zs, rfl⟩ := h
  rw [List.drop_append_of_le_length (by omega), List.take_append_of_le_length (by simp; omega)]

theorem section_of_mem_passages (hlong : limits.maxChunkLines < lineCount (trimEnd text))
    {ranges : List (Nat × Nat)} (hcut : CutAt (lines (trimEnd text)) ranges
      (proseSections format limits.maxChunkLines (trimEnd text)))
    (hf : f ∈ passages (ofProse limits known path format text)) :
    ∃ s r, r ∈ ranges ∧ s.Fills (lines (trimEnd text)) r.1 r.2 ∧ FromSection limits s f := by
  rw [passages_ofProse hlong] at hf
  obtain ⟨⟨s, i⟩, hs, hsome⟩ := List.mem_filterMap.1 hf
  obtain ⟨r, hr, hfills⟩ := hcut.fills (fun _ hl => newline_not_mem_of_mem_lines hl) s
    (List.fst_mem_of_mem_zipIdx hs)
  exact ⟨s, r, hr, hfills, fromSection_of_ofProseSection hsome⟩

section Passage

variable {s : Section} {first stop : Nat}

theorem ownLines_of_fills (hfills : s.Fills (lines (trimEnd text)) first stop)
    (hfrom : FromSection limits s f) :
    ownLines text f = ((lines text).drop first).take (s.endLine - first) := by
  rw [ownLines, hfrom.start, hfrom.last, hfills.start, Nat.add_sub_cancel, Nat.add_sub_add_right]

theorem bareLines_of_fills (hfills : s.Fills (lines (trimEnd text)) first stop)
    (hfrom : FromSection limits s f) (hlast : s.endLine ≤ lineCount (trimEnd text)) :
    bareLines s.text = (ownLines text f).map trimEnd := by
  have hpos := hfills.pos
  rw [hfills.text, ownLines_of_fills hfills hfrom, List.map_take, List.map_drop]
  exact take_drop_of_prefix (prefix_bareLines_trimEnd text) (by
    rw [List.length_map, length_lines]
    omega)

theorem content_of_fills (hfills : s.Fills (lines (trimEnd text)) first stop)
    (hfrom : FromSection limits s f) (hlast : s.endLine ≤ lineCount (trimEnd text))
    (hwhole : isTruncated f.content = false ∨ (ownLines text f).length ≤ limits.maxChunkLines) :
    bareLines f.content = (ownLines text f).map trimEnd := by
  have hbare := bareLines_of_fills hfills hfrom hlast
  have hfits : lineCount s.text ≤ limits.maxChunkLines := by
    by_contra hlong
    rcases hwhole with hwhole | hshort
    · rw [hfrom.content, isTruncated_truncate (Nat.not_le.1 hlong) (.inr rfl)] at hwhole
      cases hwhole
    · have hlength := congrArg List.length hbare
      rw [length_bareLines, List.length_map] at hlength
      omega
  rw [hfrom.content, truncate_of_le hfits, hbare]

end Passage

theorem covers_passages (hmin : limits.minChunkLines = 1)
    (hlong : limits.maxChunkLines < lineCount (trimEnd text)) :
    Covers (bareLines text) 0
      ((passages (ofProse limits known path format text)).map fragmentRange) := by
  obtain ⟨ranges, hcut, hcovers⟩ := exists_cutAt format limits.maxChunkLines (trimEnd text)
  have hlines : ∀ l ∈ lines (trimEnd text), '\n' ∉ l.toList := fun _ hl =>
    newline_not_mem_of_mem_lines hl
  have hsome : ∀ s ∈ proseSections format limits.maxChunkLines (trimEnd text),
      limits.minChunkLines ≤ lineCount s.text := by
    intro s hs
    obtain ⟨r, _, hfills⟩ := hcut.fills hlines s hs
    have hlength := congrArg List.length hfills.text
    have hlast := hfills.le_length
    have hpos := hfills.pos
    rw [length_bareLines, List.length_take, List.length_drop, List.length_map] at hlength
    omega
  rw [passages_ofProse hlong, map_fragmentRange _ 0 hsome]
  exact (hcut.covers hlines hcovers).congr fun i => blankAt_bareLines_trimEnd.1

theorem divides_passages (hmin : limits.minChunkLines = 1)
    (hlong : limits.maxChunkLines < lineCount (trimEnd text)) :
    Divides limits text (passages (ofProse limits known path format text)) := by
  obtain ⟨ranges, hcut, _⟩ := exists_cutAt format limits.maxChunkLines (trimEnd text)
  have hcovers : Covers _ _ ((passages (ofProse limits known path format text)).map fragmentRange) :=
    covers_passages hmin hlong
  have hle := lineCount_trimEnd_le text
  refine ⟨fun f hf => ?_, ?_, fun i hi hsome => ?_, fun f hf hwhole => ?_⟩
  · have hpart := (partOf_ofProse (List.mem_of_mem_filter hf)).lines
    rwa [Nat.max_eq_right (by omega)] at hpart
  · refine (List.pairwise_map.1 hcovers.increasing).imp_of_mem fun hf hg hbehind => ?_
    have hbounds := hcovers.bounds _ (List.mem_map_of_mem hf)
    dsimp only [fragmentRange] at hbehind hbounds
    omega
  · have hnot : ¬BlankAt (bareLines text) i := by
      rw [BlankAt, bareLines, List.getD_eq_getElem _ _ (by simpa using hi), List.getElem_map,
        ← isBlankText_iff, hsome]
      exact Bool.false_ne_true
    -- The ranges are those of the passages, so one range with the line is one passage with it.
    have hcount := hcovers.countP_eq_one (Nat.zero_le i) hnot
    rw [List.countP_map] at hcount
    refine (List.countP_congr fun f _ => ?_).trans hcount
    change _ ↔ (decide (f.startLine - 1 ≤ i) && decide (i < f.endLine)) = true
    simp only [Bool.and_eq_true, decide_eq_true_eq]
    omega
  · obtain ⟨s, r, _, hfills, hfrom⟩ := section_of_mem_passages hlong hcut hf
    have hlast := hfills.le_length
    rw [length_lines] at hlast
    exact content_of_fills hfills hfrom hlast hwhole

/-- Whether a document is split at its blank lines. -/
def SplitsAtBlanks (format : ProseFormat) (text : String) : Prop :=
  format = .markdown → headersFrom false 0 (lines (trimEnd text)) = []

theorem proseSections_of_splitsAtBlanks (h : SplitsAtBlanks format text) (most : Nat) :
    proseSections format most (trimEnd text) = paragraphSections most (lines (trimEnd text)) := by
  cases format with
  | markdown => simp [proseSections, markdownSections, h rfl]
  | text | rst => rfl

theorem not_blank_of_long (hlong : limits.maxChunkLines < lineCount (trimEnd text))
    (hsplits : SplitsAtBlanks format text)
    (hf : f ∈ passages (ofProse limits known path format text))
    (hpassage : limits.maxChunkLines < (ownLines text f).length) :
    ∀ l ∈ ownLines text f, isBlankText l = false := by
  have hcut := cutAt_paragraphSections limits.maxChunkLines (lines (trimEnd text))
  rw [← proseSections_of_splitsAtBlanks hsplits] at hcut
  obtain ⟨s, r, hr, hfills, hfrom⟩ := section_of_mem_passages hlong hcut hf
  have hown := ownLines_of_fills hfills hfrom
  have hstop := hfills.le_stop
  rw [hown, List.length_take] at hpassage
  have hparagraph : r ∈ paragraphsFrom none 0 (lines (trimEnd text)) := by
    rcases of_mem_groups r hr with hparagraph | hshort
    · exact hparagraph
    · omega
  have hsome := not_blankAt_of_mem_paragraphs _ r hparagraph
  intro l hl
  rw [hown] at hl
  obtain ⟨k, hk, rfl⟩ := List.mem_iff_getElem.1 hl
  rw [List.length_take, List.length_drop] at hk
  have hline := hsome (r.1 + k) (by omega) (by omega)
  rw [← bareLines, blankAt_bareLines_trimEnd, BlankAt, bareLines,
    List.getD_eq_getElem _ _ (by rw [List.length_map]; omega), List.getElem_map,
    ← isBlankText_iff] at hline
  rw [List.getElem_take, List.getElem_drop]
  exact Bool.eq_false_iff.2 hline

/-- The passages of a document that is too long, blank lines at its end not counted, divide it, and
those that are too long themselves hold no blank line if it is split at its blank lines. -/
theorem passages_divide (limits : ChunkLimits) (known : KnownNames) (a : Artifact)
    (format : ProseFormat) (hkind : a.kind? = some (.prose format))
    (hmin : limits.minChunkLines = 1)
    (hlong : limits.maxChunkLines < lineCount (trimEnd a.text)) :
    let fs := passages (ofDocument limits known a)
    Divides limits a.text fs ∧
      (SplitsAtBlanks format a.text → ∀ f ∈ fs,
        limits.maxChunkLines < (ownLines a.text f).length →
          ∀ l ∈ ownLines a.text f, isBlankText l = false) := by
  intro fs
  have hfs : fs = passages (ofProse limits known a.path format a.text) := by
    simp only [fs, ofDocument, hkind]
  rw [hfs]
  exact ⟨divides_passages hmin hlong, fun hsplits f hf hpassage =>
    not_blank_of_long hlong hsplits hf hpassage⟩

theorem passages_divide_notes :
    let limits : ChunkLimits := ⟨1, 2, 500, 50, true, true⟩
    let a : Artifact := ⟨"notes.txt", "one \n\ntwo\nthree\nfour\n\n"⟩
    let fs := passages (ofDocument limits ⟨[]⟩ a)
    fs.map (fun f => (f.startLine, f.endLine, f.content)) =
        [(1, 1, "one"), (3, 5, "two\n... (truncated)")] ∧
      a.kind? = some (.prose .text) ∧ Divides limits a.text fs ∧
      ∀ f ∈ fs, limits.maxChunkLines < (ownLines a.text f).length →
        ∀ l ∈ ownLines a.text f, isBlankText l = false := by
  intro limits a fs
  have hkind : a.kind? = some (.prose .text) := by decide +kernel
  have hmin : limits.minChunkLines = 1 := by decide
  have hlong : limits.maxChunkLines < lineCount (trimEnd a.text) := by decide +kernel
  obtain ⟨hdivides, hparagraphs⟩ := passages_divide limits ⟨[]⟩ a .text hkind hmin hlong
  exact ⟨by decide +kernel, hkind, hdivides, hparagraphs fun hformat => nomatch hformat⟩

/-- A text that has more lines than are allowed only through blank lines at its end has no
passages. -/
theorem not_passages_divide :
    ¬ ∀ (limits : ChunkLimits) (known : KnownNames) (a : Artifact) (format : ProseFormat),
      a.kind? = some (.prose format) → limits.minChunkLines = 1 →
      limits.maxChunkLines < lineCount a.text →
        Divides limits a.text (passages (ofDocument limits known a)) := by
  intro hall
  have hdivides := hall ⟨1, 2, 500, 50, true, true⟩ ⟨[]⟩ ⟨"notes.txt", "one\n\n\n\n"⟩ .text
    (by decide +kernel) rfl (by decide +kernel)
  have hnone : passages (ofDocument ⟨1, 2, 500, 50, true, true⟩ ⟨[]⟩
      ⟨"notes.txt", "one\n\n\n\n"⟩) = [] := by decide +kernel
  rw [hnone] at hdivides
  exact absurd (hdivides.once 0 (by decide +kernel) (by decide +kernel)) (by decide)

end CodeRetrieval.Chunk
