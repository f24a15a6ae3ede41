import CodeRetrieval.Json.Value
import CodeRetrieval.Settings.Basic

set_option autoImplicit false

namespace CodeRetrieval

def Json.ofNat? (n : Option Nat) : Json := (n.map .ofNat).getD .null

def ChunkLimits.toJson (c : ChunkLimits) : Json := .obj [
  ("min_chunk_lines", .ofNat c.minChunkLines),
  ("max_chunk_lines", .ofNat c.maxChunkLines),
  ("max_file_lines", .ofNat c.maxFileLines),
  ("min_member_chars", .ofNat c.minMemberChars),
  ("include_members", .bool c.includeMembers),
  ("include_documentation", .bool c.includeDocumentation)]

def IndexSettings.toJson (s : IndexSettings) : Json := .obj [
  ("root", .str s.root),
  ("exclude_globs", .ofStrings s.excludeGlobs),
  ("follow_symlinks", .bool s.followSymlinks)]

variable (number : Float → Json)

def RetrievalSettings.toJson (r : RetrievalSettings) : Json := .obj [
  ("use_hybrid", .bool r.fusion.useHybrid),
  ("rrf_k", number r.fusion.rrfK),
  ("keyword_boost", number r.fusion.keywordBoost),
  ("keyword_content_weight", number r.weights.content),
  ("keyword_name_weight", number r.weights.name),
  ("max_deps_per_unit", .ofNat r.dependencies.perFragment),
  ("reverse_dependency_limit", .ofNat r.dependencies.reverse)]

def EmbeddingSettings.toJson (e : EmbeddingSettings) : Json := .obj [
  ("provider", .str e.provider),
  ("model", .ofText? e.model),
  ("dims", .ofNat? e.dims),
  ("url", .ofText? e.url),
  ("batch_size", .ofNat e.batchSize),
  ("max_tokens_per_batch", .ofNat e.maxTokensPerBatch),
  ("chars_per_token", number e.charsPerToken),
  ("max_retries", .ofNat e.maxRetries),
  ("timeout_secs", .ofNat e.timeoutSecs)]

def GenerationSettings.toJson (g : GenerationSettings) : Json := .obj [
  ("provider", .str g.provider),
  ("model", .ofText? g.model),
  ("url", .ofText? g.url),
  ("temperature", number g.temperature.toFloat),
  ("max_output_tokens", .ofNat g.maxOutputTokens),
  ("timeout_secs", .ofNat g.timeoutSecs),
  ("system_prompt", .ofText? g.systemPrompt)]

def Settings.toJson (s : Settings) : Json := .obj [
  ("db", .obj [("path", .str s.databasePath)]),
  ("index", s.index.toJson),
  ("chunking", s.chunking.toJson),
  ("retrieval", s.retrieval.toJson number),
  ("embedding", s.embedding.toJson number),
  ("generation", s.generation.toJson number),
  ("session", .obj [("max_turns", .ofNat s.maxTurns)]),
  ("server", .obj [("bind", .str s.bind)])]

def RetrieverConfig.toJson (r : RetrieverConfig) : Json := .obj [
  ("use_hybrid", .bool r.fusion.useHybrid),
  ("rrf_k", number r.fusion.rrfK),
  ("keyword_boost", number r.fusion.keywordBoost),
  ("max_deps_per_unit", .ofNat r.dependencies.perFragment),
  ("reverse_dependency_limit", .ofNat r.dependencies.reverse),
  ("temperature", number r.temperature.toFloat),
  ("max_output_tokens", .ofNat r.maxOutputTokens),
  ("system_prompt", .ofText? r.systemPrompt)]

end CodeRetrieval
