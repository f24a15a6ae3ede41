import CodeRetrieval.Chunk.Limits
import CodeRetrieval.Embedding.Batch
import CodeRetrieval.Ranking.Keyword
import CodeRetrieval.Retrieval.Find

set_option autoImplicit false

namespace CodeRetrieval

structure IndexSettings where
  root : String
  excludeGlobs : List String
  followSymlinks : Bool
  deriving DecidableEq, Repr

def IndexSettings.standard : IndexSettings := ⟨".", [], false⟩

structure RetrievalSettings where
  fusion : Fusion Float
  weights : KeywordWeights Float
  dependencies : DependencyLimits

def RetrievalSettings.standard : RetrievalSettings := ⟨.standard, ⟨1.0, 2.0⟩, ⟨5, 5⟩⟩

structure EmbeddingSettings where
  /-- `disabled`, `openai`, `ollama` or `local`. -/
  provider : String
  model : Option String
  dims : Option Nat
  url : Option String
  batchSize : Nat
  maxTokensPerBatch : Nat
  charsPerToken : Float
  maxRetries : Nat
  timeoutSecs : Nat

namespace EmbeddingSettings

def standard : EmbeddingSettings := ⟨"disabled", none, none, none, 100, 15000, 2.0, 5, 30⟩

def isEnabled (e : EmbeddingSettings) : Bool := e.provider != "disabled"

def limits (e : EmbeddingSettings) : BatchLimits :=
  ⟨e.maxTokensPerBatch, e.batchSize, e.charsPerToken⟩

end EmbeddingSettings

structure GenerationSettings where
  provider : String
  model : Option String
  url : Option String
  temperature : Float32
  maxOutputTokens : Nat
  timeoutSecs : Nat
  systemPrompt : Option String

namespace GenerationSettings

def standard : GenerationSettings := ⟨"disabled", none, none, 0.3, 2048, 120, none⟩

def isEnabled (g : GenerationSettings) : Bool := g.provider != "disabled"

end GenerationSettings

structure Settings where
  databasePath : String
  index : IndexSettings
  chunking : ChunkLimits
  retrieval : RetrievalSettings
  embedding : EmbeddingSettings
  generation : GenerationSettings
  maxTurns : Nat
  bind : String

namespace Settings

def standard : Settings where
  databasePath := "./data/chx.sqlite"
  index := .standard
  chunking := .standard
  retrieval := .standard
  embedding := .standard
  generation := .standard
  maxTurns := 10
  bind := "127.0.0.1:7331"

def retriever (s : Settings) : RetrieverConfig where
  fusion := s.retrieval.fusion
  dependencies := s.retrieval.dependencies
  temperature := s.generation.temperature
  maxOutputTokens := s.generation.maxOutputTokens
  systemPrompt := s.generation.systemPrompt

end Settings

end CodeRetrieval
