import CodeRetrieval.Settings.Basic

set_option autoImplicit false

namespace CodeRetrieval

structure Complaint where
  holds : Bool
  text : String

namespace Settings

def chunkingComplaints (c : ChunkLimits) : List Complaint := [
  ⟨c.minChunkLines == 0, "chunking.min_chunk_lines must be > 0"⟩,
  ⟨c.maxChunkLines < c.minChunkLines,
    "chunking.max_chunk_lines must be >= chunking.min_chunk_lines"⟩,
  ⟨c.maxFileLines == 0, "chunking.max_file_lines must be > 0"⟩]

def retrievalComplaints (r : RetrievalSettings) : List Complaint := [
  ⟨r.fusion.rrfK < 0, "retrieval.rrf_k must be >= 0"⟩,
  ⟨r.fusion.keywordBoost ≤ 0, "retrieval.keyword_boost must be > 0"⟩,
  ⟨r.weights.content < 0 || r.weights.name < 0, "retrieval keyword weights must be >= 0"⟩,
  ⟨r.weights.content + r.weights.name ≤ 0, "retrieval keyword weights must not both be 0"⟩]

def needsModel (e : EmbeddingSettings) : Bool := e.provider == "openai" || e.provider == "ollama"

def embeddingComplaints (e : EmbeddingSettings) : List Complaint := [
  ⟨e.provider ∉ ["disabled", "openai", "ollama", "local"],
    "Unknown embedding provider: '" ++ e.provider ++
      "'. Must be disabled, openai, ollama, or local."⟩,
  ⟨needsModel e && (e.dims.getD 0) == 0,
    "embedding.dims must be > 0 when provider is '" ++ e.provider ++ "'"⟩,
  ⟨needsModel e && e.model.isNone,
    "embedding.model must be specified when provider is '" ++ e.provider ++ "'"⟩,
  ⟨e.batchSize == 0, "embedding.batch_size must be > 0"⟩,
  ⟨e.maxTokensPerBatch == 0, "embedding.max_tokens_per_batch must be > 0"⟩,
  ⟨e.charsPerToken ≤ 0, "embedding.chars_per_token must be > 0"⟩]

def generationComplaints (g : GenerationSettings) : List Complaint := [
  ⟨g.provider ∉ ["disabled", "openai", "ollama"],
    "Unknown generation provider: '" ++ g.provider ++ "'. Must be disabled, openai, or ollama."⟩,
  ⟨g.isEnabled && g.model.isNone,
    "generation.model must be specified when provider is '" ++ g.provider ++ "'"⟩,
  ⟨!(0 ≤ g.temperature && g.temperature ≤ 2), "generation.temperature must be in [0.0, 2.0]"⟩]

def complaints (s : Settings) : List Complaint :=
  chunkingComplaints s.chunking ++ retrievalComplaints s.retrieval ++
    embeddingComplaints s.embedding ++ generationComplaints s.generation ++
    [⟨s.maxTurns == 0, "session.max_turns must be > 0"⟩]

def check (s : Settings) : Outcome Settings :=
  match s.complaints.find? (·.holds) with
  | some c => .error (.plain c.text)
  | none => .ok s

end Settings

end CodeRetrieval
