import CodeRetrieval.Proofs.Chunk.Origin
import CodeRetrieval.Proofs.Source.Declaration

set_option autoImplicit false

namespace CodeRetrieval.Chunk

open Source

variable {limits : ChunkLimits} {parser reader : Reader} {artifacts : List Artifact} {a : Artifact}
  {known : KnownNames} {f : Fragment}

/-- Whether what a parser with the outline behind it makes of a source file is its outline. -/
def ReadByOutline (parser : Reader) (a : Artifact) : Prop :=
  (∃ reason, parser a.path a.text = .failed reason) ∨
    parser a.path a.text = Outline.read a.path a.text

theorem file?_orElse (h : ReadByOutline parser a) :
    (parser.orElse Outline.read a.path a.text).file? = (Outline.read a.path a.text).file? := by
  unfold Reader.orElse
  rcases h with ⟨reason, hfailed⟩ | hsame
  · rw [hfailed]
    exact Reading.file?_insteadOf reason _
  · rw [hsame]
    cases hread : Outline.read a.path a.text with
    | parsed file => rfl
    | degraded file reason => rfl
    | failed reason => rfl

/-- Length and lines of a fragment that was made of an artifact. -/
structure Spans (limits : ChunkLimits) (parser : Reader) (a : Artifact) (f : Fragment) : Prop where
  fits : Fits limits f.content
  le : f.startLine ≤ f.endLine
  document : f.kind.isDocument = true →
    f.filePath = a.path ∧ LinesOf (max 1 a.lineCount) f.startLine f.endLine
  outlined : f.kind.isDocument = false → ReadByOutline parser a →
    f.filePath = a.path ∧ LinesOf a.lineCount f.startLine f.endLine

theorem spans_of_mem_ofArtifact (hmax : 1 ≤ limits.maxChunkLines)
    (h : f ∈ ofArtifact limits (parser.orElse Outline.read) known a) : Spans limits parser a f := by
  rcases of_mem_ofArtifact h with ⟨_, file, d, hmade⟩ | ⟨_, hf⟩
  · have hf := hmade.codeOf
    obtain ⟨⟨hfile, hd⟩, _⟩ := hmade
    obtain ⟨whole, hbound⟩ := hf.bounded
    refine ⟨fits_of_bound hmax (.inl rfl) hbound, hf.le, fun hdocument => ?_, fun _ houtline => ?_⟩
    · rw [hf.isCode] at hdocument
      cases hdocument
    · rw [file?_orElse houtline] at hfile
      obtain ⟨hpath, hplaced⟩ := Outline.placed_of_read hfile
      exact ⟨hf.path_eq.trans hpath, hf.lines a.lineCount (hplaced d hd)⟩
  · obtain ⟨whole, marker, hmarker, hbound⟩ := hf.bounded
    refine ⟨fits_of_bound hmax hmarker hbound, hf.lines.le, fun _ => ⟨hf.path_eq, hf.lines⟩,
      fun hcode => ?_⟩
    rw [hf.isDocument] at hcode
    cases hcode

/-- Every fragment is made of an accepted artifact, and keeps to the limits and to the lines of each
artifact that it can be made of. -/
theorem spans_of_mem_ofArtifacts (limits : ChunkLimits) (parser : Reader)
    (artifacts : List Artifact) (hmin : 1 ≤ limits.minChunkLines)
    (hmax : limits.minChunkLines ≤ limits.maxChunkLines) :
    let reader := parser.orElse Outline.read
    let known := knownOf limits reader artifacts
    ∀ f ∈ ofArtifacts limits reader artifacts,
      (∃ a ∈ artifacts, accepts limits a = true ∧ f ∈ ofArtifact limits reader known a) ∧
        ∀ a, f ∈ ofArtifact limits reader known a → Spans limits parser a f := by
  intro reader known f hf
  exact ⟨mem_emitted.1 (mem_emitted_of_mem hf), fun a ha =>
    spans_of_mem_ofArtifact (hmin.trans hmax) ha⟩

theorem spans_of_mem_ofArtifacts_cart :
    let limits : ChunkLimits := ⟨2, 3, 500, 50, true, true⟩
    let parser : Reader := fun _ _ => .failed "no parser"
    let reader := parser.orElse Outline.read
    let artifacts : List Artifact := [
      ⟨"Cart.java", "class Cart \x7b\n    int items;\n    int total;\n\x7d\n"⟩,
      ⟨"cart.md", "A\nCart\n"⟩]
    let known := knownOf limits reader artifacts
    ((ofArtifacts limits reader artifacts).map fun f =>
      (f.filePath, f.startLine, f.endLine, f.content)) = [
        ("Cart.java", 1, 4, "// partial extraction: no parser; regex extraction\n" ++
          "class Cart \x7b\n// ... truncated"), ("cart.md", 1, 2, "A\nCart")] ∧
      ∀ f ∈ ofArtifacts limits reader artifacts,
        (∃ a ∈ artifacts, accepts limits a = true ∧ f ∈ ofArtifact limits reader known a) ∧
          ∀ a, f ∈ ofArtifact limits reader known a → Spans limits parser a f := by
  intro limits parser reader artifacts known
  have hmin : 1 ≤ limits.minChunkLines := by decide
  have hmax : limits.minChunkLines ≤ limits.maxChunkLines := by decide
  exact ⟨by decide +kernel, spans_of_mem_ofArtifacts limits parser artifacts hmin hmax⟩

end CodeRetrieval.Chunk
