import CodeRetrieval.Chunk.Code
import CodeRetrieval.Proofs.Chunk.Bound
import CodeRetrieval.Source.Grammar.File

set_option autoImplicit false

namespace CodeRetrieval

namespace Chunk

open Source Text

variable {limits : ChunkLimits} {file : SourceFile} {degraded : Option String}
  {known : KnownNames} {d : Declaration} {f : Fragment}

/-- What a declaration is written out as: its head, its fields and members, and a brace. -/
def fullParts (limits : ChunkLimits) (file : SourceFile) (degraded : Option String)
    (d : Declaration) : List String :=
  headLines limits file degraded d ++ bodyLines d ++ ["\x7d"]

def fullText (limits : ChunkLimits) (file : SourceFile) (degraded : Option String)
    (d : Declaration) : String :=
  unlines (fullParts limits file degraded d)

def Summarized (f : Fragment) : Prop := f.metadata.lookup "summarized" = some (.bool true)

theorem exists_fullText_eq (limits : ChunkLimits) (file : SourceFile) (degraded : Option String)
    (d : Declaration) : ∃ front, fullText limits file degraded d = front ++ "\n" ++ "\x7d" :=
  ⟨_, unlines_concat (by simp [headLines]) _⟩

theorem lineCount_closed {ps : List String} (h : ps ≠ []) :
    lineCount (unlines (ps ++ ["\x7d"])) = (ps ++ ["\x7d"]).length + feeds (ps ++ ["\x7d"]) := by
  have hopen : Chars.endsOpen (unlines (ps ++ ["\x7d"])).toList = true := by
    rw [unlines_concat h]
    simp [Chars.endsOpen]
  rw [lineCount, Chars.length_lines, hopen, if_pos rfl, count_unlines (by simp)]

theorem lineCount_fullText (limits : ChunkLimits) (file : SourceFile) (degraded : Option String)
    (d : Declaration) : lineCount (fullText limits file degraded d) =
      (fullParts limits file degraded d).length + feeds (fullParts limits file degraded d) :=
  lineCount_closed (by simp [headLines])

theorem isTruncated_fullText (limits : ChunkLimits) (file : SourceFile) (degraded : Option String)
    (d : Declaration) : isTruncated (fullText limits file degraded d) = false := by
  obtain ⟨front, hfront⟩ := exists_fullText_eq limits file degraded d
  have hlast : (lines (fullText limits file degraded d)).getLast? = some "\x7d" := by
    rw [hfront]
    exact getLast?_lines_concat front (by decide) (by decide)
  rw [isTruncated, hlast]
  decide

theorem summarized_iff (h : ofDeclaration limits file degraded known d = some f) :
    Summarized f ↔ limits.maxChunkLines < (fullParts limits file degraded d).length := by
  obtain ⟨content, _, rfl⟩ := Option.map_eq_some_iff.1 h
  change some (Json.bool (needsSummary limits (headLines limits file degraded d) d)) = _ ↔ _
  simp [needsSummary, fullParts]

theorem content_of_not_summarized (h : ofDeclaration limits file degraded known d = some f)
    (hfew : (fullParts limits file degraded d).length ≤ limits.maxChunkLines) :
    f.content = truncate (fullText limits file degraded d) limits.maxChunkLines codeMarker := by
  obtain ⟨content, hbound, rfl⟩ := Option.map_eq_some_iff.1 h
  have hfull : needsSummary limits (headLines limits file degraded d) d = false :=
    decide_eq_false (Nat.not_lt.2 hfew)
  rw [declarationText, hfull] at hbound
  exact eq_truncate_of_bound hbound

/-- A declaration is cut only as a summary just if its parts, once they are few enough to be written
out, take few enough lines as well. -/
theorem summarized_before_cut_iff (limits : ChunkLimits) (file : SourceFile)
    (degraded : Option String) (known : KnownNames) (d : Declaration) (f : Fragment)
    (h : ofDeclaration limits file degraded known d = some f) :
    let parts := fullParts limits file degraded d
    (isTruncated f.content = true → Summarized f) ∧
        (limits.maxChunkLines < lineCount (fullText limits file degraded d) → Summarized f) ↔
      (parts.length ≤ limits.maxChunkLines → parts.length + feeds parts ≤ limits.maxChunkLines) := by
  intro parts
  have hlines : lineCount (fullText limits file degraded d) = parts.length + feeds parts :=
    lineCount_fullText limits file degraded d
  rw [summarized_iff h, hlines]
  constructor
  · intro hcut hfew
    by_contra hlong
    have hmany := hcut.2 (Nat.not_le.1 hlong)
    exact absurd hfew (Nat.not_le.2 hmany)
  · intro hfits
    rcases Nat.lt_or_ge limits.maxChunkLines parts.length with hmany | hfew
    · exact ⟨fun _ => hmany, fun _ => hmany⟩
    · have hshort := hfits hfew
      have hcontent := content_of_not_summarized h hfew
      rw [truncate_of_le (by omega)] at hcontent
      refine ⟨fun htruncated => ?_, fun hlong => absurd hshort (Nat.not_le.2 hlong)⟩
      rw [hcontent, isTruncated_fullText] at htruncated
      cases htruncated

theorem summarized_before_cut_iff_cart :
    let limits : ChunkLimits := ⟨1, 6, 99, 50, true, true⟩
    let text := "@Table(\n  name = \"carts\"\n)\nclass Cart \x7b\n    int total;\n\x7d\n"
    ∃ file d f, (Grammar.read "Cart.java" text).file? = some file ∧ d ∈ file.declarations ∧
      ofDeclaration limits file none ⟨[]⟩ d = some f ∧
      (fullParts limits file none d).length = 4 ∧ feeds (fullParts limits file none d) = 2 ∧
      (isTruncated f.content = true → Summarized f) := by
  intro limits text
  have hread : (Grammar.read "Cart.java" text).file?.map (fun file =>
      file.declarations.map fun d => ((ofDeclaration limits file none ⟨[]⟩ d).isSome,
        (fullParts limits file none d).length, feeds (fullParts limits file none d))) =
      some [(true, 4, 2)] := by decide +kernel
  obtain ⟨file, hfile, hread⟩ := Option.map_eq_some_iff.1 hread
  obtain ⟨d, hd, hfacts⟩ := List.map_eq_singleton_iff.1 hread
  obtain ⟨hsome, hlength, hfeeds⟩ := Prod.mk.inj hfacts |>.imp_right Prod.mk.inj
  obtain ⟨f, hf⟩ := Option.isSome_iff_exists.1 hsome
  have hcut := (summarized_before_cut_iff limits file none ⟨[]⟩ d f hf).2 fun _ => by
    rw [hlength, hfeeds]
  exact ⟨file, d, f, hfile, by simp [hd], hf, hlength, hfeeds, hcut.1⟩

/-- A class with an annotation on four lines, which is allowed to take five. -/
theorem not_summarized_before_cut :
    ¬ ∀ (limits : ChunkLimits) (known : KnownNames) (path text : String) (file : SourceFile)
      (d : Declaration) (f : Fragment),
      1 ≤ limits.minChunkLines → limits.minChunkLines ≤ limits.maxChunkLines →
      (Grammar.read path text).file? = some file →
      (Grammar.read path text).degradedReason? = none → d ∈ file.declarations →
      ofDeclaration limits file none known d = some f →
        (isTruncated f.content = true → Summarized f) ∧
          (limits.maxChunkLines < lineCount (fullText limits file none d) → Summarized f) := by
  intro hall
  let limits : ChunkLimits := ⟨1, 5, 99, 50, true, true⟩
  let text := "@Table(\n  name = \"a\",\n  x = 1\n)\nclass A \x7b\n    int x;\n\x7d\n"
  have hread : (Grammar.read "A.java" text).file?.map (fun file =>
      file.declarations.map fun d => (ofDeclaration limits file none ⟨[]⟩ d).map fun f =>
        (isTruncated f.content, f.metadata.lookup "summarized")) =
      some [some (true, some (.bool false))] := by decide +kernel
  obtain ⟨file, hfile, hread⟩ := Option.map_eq_some_iff.1 hread
  obtain ⟨d, hd, hfacts⟩ := List.map_eq_singleton_iff.1 hread
  obtain ⟨f, hf, hfacts⟩ := Option.map_eq_some_iff.1 hfacts
  obtain ⟨htruncated, hsummarized⟩ := Prod.mk.inj hfacts
  have hcut := hall limits ⟨[]⟩ "A.java" text file d f (by decide) (by decide) hfile
    (by decide +kernel) (by simp [hd]) hf
  have hsummary : f.metadata.lookup "summarized" = some (.bool true) := hcut.1 htruncated
  rw [hsummarized] at hsummary
  exact absurd hsummary (by decide)

end Chunk

end CodeRetrieval
