import CodeRetrieval.Chunk.Config
import CodeRetrieval.Chunk.Prose
import CodeRetrieval.Proofs.Chunk.Bound

set_option autoImplicit false

namespace CodeRetrieval

namespace Chunk

open Text

/-- What every fragment of a document is, whatever part of it the fragment stands for. -/
structure PartOf (limits : ChunkLimits) (known : KnownNames) (path text : String) (f : Fragment) :
    Prop where
  path_eq : f.filePath = path
  isDocument : f.kind.isDocument = true
  entityName_eq : f.entityName = none
  lines : LinesOf (max 1 (lineCount text)) f.startLine f.endLine
  bounded : ∃ whole marker, IsMarker marker ∧ bound limits whole marker = some f.content
  mentioned : ∃ part, f.references = Reference.ofText part known

variable {limits : ChunkLimits} {known : KnownNames} {path text : String} {f : Fragment}

section Config

variable {format : ConfigFormat}

theorem keyLine_lines (format : ConfigFormat) (ls : List String) (key : String) :
    1 ≤ keyLine format ls key ∧ keyLine format ls key ≤ max 1 ls.length := by
  unfold keyLine
  split
  · next i h =>
    have hlt : i < ls.length := (List.findIdx?_eq_some_iff_findIdx_eq.1 h).1
    omega
  · omega

theorem partOf_ofConfigWhole (h : ofConfigWhole limits known path format text = some f) :
    PartOf limits known path text f := by
  obtain ⟨content, hbound, rfl⟩ := Option.map_eq_some_iff.1 h
  exact ⟨rfl, rfl, rfl, ⟨Nat.le_refl 1, Nat.le_max_left 1 _, Nat.le_refl _⟩,
    ⟨_, _, .inl rfl, hbound⟩, _, rfl⟩

theorem partOf_ofConfigSection {s : ConfigSection}
    (h : ofConfigSection limits known path format text s = some f) :
    PartOf limits known path text f := by
  obtain ⟨content, hbound, rfl⟩ := Option.map_eq_some_iff.1 h
  have hkey := keyLine_lines format (lines text) s.key
  rw [length_lines] at hkey
  refine ⟨rfl, rfl, rfl, ⟨hkey.1, ?_, ?_⟩, ⟨_, _, .inl rfl, hbound⟩, _, rfl⟩
  · show keyLine format (lines text) s.key ≤ min _ _
    omega
  · show min _ _ ≤ _
    omega

theorem of_mem_ofConfig (h : f ∈ ofConfig limits known path format text) :
    ofConfigWhole limits known path format text = some f ∨
      ∃ s ∈ configSections format text,
        ofConfigSection limits known path format text s = some f := by
  unfold ofConfig at h
  rcases List.mem_append.1 h with hwhole | hsection
  · exact .inl (Option.mem_toList.1 hwhole)
  · by_cases hlong : isLongConfig limits known path text = true
    · rw [if_pos hlong] at hsection
      exact .inr (List.mem_filterMap.1 hsection)
    · rw [if_neg hlong] at hsection
      exact absurd hsection List.not_mem_nil

theorem partOf_ofConfig (h : f ∈ ofConfig limits known path format text) :
    PartOf limits known path text f := by
  rcases of_mem_ofConfig h with hwhole | ⟨s, _, hsection⟩
  · exact partOf_ofConfigWhole hwhole
  · exact partOf_ofConfigSection hsection

end Config

section Prose

variable {format : ProseFormat}

theorem lines_of_sectionOf? {ls : List String} (hls : ∀ l ∈ ls, '\n' ∉ l.toList)
    {start stop : Nat} {title : String} {s : Section}
    (h : sectionOf? ls start stop title = some s) : LinesOf ls.length s.startLine s.endLine := by
  simp only [sectionOf?] at h
  split at h
  · cases h
  · next hblank =>
    cases h
    have hslice : lineCount (trimEnd (unlines ((ls.drop start).take (stop - start)))) ≤
        ((ls.drop start).take (stop - start)).length :=
      (lineCount_trimEnd_le _).trans (lineCount_unlines_le fun l hl =>
        hls l (List.mem_of_mem_drop (List.mem_of_mem_take hl)))
    have hsome : (ls.drop start).take (stop - start) ≠ [] := by
      intro hnone
      rw [hnone] at hblank
      exact hblank (by decide)
    have hpos := List.length_pos_iff.2 hsome
    rw [List.length_take, List.length_drop] at hslice hpos
    refine ⟨?_, ?_, ?_⟩
    · show 1 ≤ start + 1
      omega
    · show start + 1 ≤ start + max 1 _
      omega
    · show start + max 1 _ ≤ ls.length
      omega

/-- Cut from some lines. -/
def CutFrom (ls : List String) (s : Section) : Prop :=
  ∃ start stop title, sectionOf? ls start stop title = some s

theorem cutFrom_paragraphSections {most : Nat} {ls : List String} {s : Section}
    (h : s ∈ paragraphSections most ls) : CutFrom ls s := by
  obtain ⟨_, _, hs⟩ := List.mem_filterMap.1 h
  exact ⟨_, _, _, hs⟩

theorem cutFrom_headerSections {ls : List String} {headers : List Header} {s : Section}
    (h : s ∈ headerSections ls headers) : CutFrom ls s := by
  induction headers with
  | nil => contradiction
  | cons header headers ih =>
    cases headers with
    | nil => exact ⟨_, _, _, Option.mem_toList.1 h⟩
    | cons next headers =>
      rcases List.mem_append.1 h with hfirst | hmore
      · exact ⟨_, _, _, Option.mem_toList.1 hfirst⟩
      · exact ih hmore

theorem cutFrom_markdownSections {most : Nat} {ls : List String} {s : Section}
    (h : s ∈ markdownSections most ls) : CutFrom ls s := by
  simp only [markdownSections] at h
  split at h
  · exact cutFrom_paragraphSections h
  · rcases List.mem_append.1 h with hintro | hheaders
    · have hintro := Option.mem_toList.1 hintro
      split at hintro
      · contradiction
      · split at hintro
        · exact ⟨_, _, _, hintro⟩
        · contradiction
    · exact cutFrom_headerSections hheaders

theorem cutFrom_proseSections {most : Nat} {body : String} {s : Section}
    (h : s ∈ proseSections format most body) : CutFrom (lines body) s := by
  cases format with
  | markdown => exact cutFrom_markdownSections h
  | text => exact cutFrom_paragraphSections h
  | rst => exact cutFrom_paragraphSections h

theorem partOf_ofProseWhole
    (h : ofProseWhole limits known path format (trimEnd text) = some f) :
    PartOf limits known path text f := by
  obtain ⟨content, hbound, rfl⟩ := Option.map_eq_some_iff.1 h
  have htrim := lineCount_trimEnd_le text
  have hlast : max 1 (lineCount (trimEnd text)) ≤ max 1 (lineCount text) := by omega
  exact ⟨rfl, rfl, rfl, ⟨Nat.le_refl 1, Nat.le_max_left 1 _, hlast⟩,
    ⟨trimEnd text, docMarker, .inr rfl, hbound⟩, trimEnd text, by dsimp only⟩

theorem partOf_ofProseSection {s : Section} {index : Nat} (hs : CutFrom (lines (trimEnd text)) s)
    (h : ofProseSection limits known path format s index = some f) :
    PartOf limits known path text f := by
  obtain ⟨content, hbound, rfl⟩ := Option.map_eq_some_iff.1 h
  obtain ⟨start, stop, title, hs⟩ := hs
  have hlines := lines_of_sectionOf? (fun _ hl => newline_not_mem_of_mem_lines hl) hs
  have htrim := lineCount_trimEnd_le text
  have hlast := hlines.le_length
  rw [length_lines] at hlast
  refine ⟨rfl, rfl, rfl, ⟨hlines.pos, hlines.le, ?_⟩, ⟨_, _, .inr rfl, hbound⟩, _, rfl⟩
  show s.endLine ≤ max 1 _
  omega

theorem of_mem_ofProse (h : f ∈ ofProse limits known path format text) :
    ofProseWhole limits known path format (trimEnd text) = some f ∨
      ∃ s i, (s, i) ∈ (proseSections format limits.maxChunkLines (trimEnd text)).zipIdx ∧
        ofProseSection limits known path format s i = some f := by
  simp only [ofProse] at h
  rcases List.mem_append.1 h with hwhole | hsection
  · exact .inl (Option.mem_toList.1 hwhole)
  · by_cases hshort : max 1 (lineCount (trimEnd text)) ≤ limits.maxChunkLines
    · rw [if_pos hshort] at hsection
      exact absurd hsection List.not_mem_nil
    · rw [if_neg hshort] at hsection
      obtain ⟨⟨s, i⟩, hs, hsome⟩ := List.mem_filterMap.1 hsection
      exact .inr ⟨s, i, hs, hsome⟩

theorem partOf_ofProse (h : f ∈ ofProse limits known path format text) :
    PartOf limits known path text f := by
  rcases of_mem_ofProse h with hwhole | ⟨s, i, hs, hsection⟩
  · exact partOf_ofProseWhole hwhole
  · exact partOf_ofProseSection (cutFrom_proseSections (List.fst_mem_of_mem_zipIdx hs)) hsection

end Prose

end Chunk

end CodeRetrieval
