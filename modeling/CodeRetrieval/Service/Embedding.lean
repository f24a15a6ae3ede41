import CodeRetrieval.Embedding.Batch
import CodeRetrieval.Service.Network
import CodeRetrieval.Settings.Basic

set_option autoImplicit false

namespace CodeRetrieval

namespace Service

def vector (what : String) (v : Json) : Outcome Embedding :=
  match v.items? with
  | some items => .ok (Embedding.ofFloats (items.map fun x => (x.float?.getD 0).toFloat32))
  | none => .error (.plain ("Invalid " ++ what ++ " response: embedding is not an array"))

/-- A vector with its number, which is its position where none is given. -/
def numbered (position : Nat) (item : Json) : Outcome (Nat × Embedding) :=
  match item.field? "embedding" with
  | none => .error (.plain "Invalid OpenAI response: missing embedding")
  | some v => do
    let v ← vector "OpenAI" v
    return (((item.field? "index").bind Json.nat?).getD position, v)

def allNumbered : Nat → List Json → Outcome (List (Nat × Embedding))
  | _, [] => .ok []
  | i, item :: rest => do
    let v ← numbered i item
    let more ← allNumbered (i + 1) rest
    return v :: more

/-- Vectors by their numbers; of equal numbers the earlier one comes first. -/
def byNumber (vs : List (Nat × Embedding)) : List Embedding :=
  (vs.mergeSort fun a b => a.1 ≤ b.1).map (·.2)

def numberedVectors (answer : Json) : Outcome (List Embedding) :=
  match (answer.field? "data").bind Json.items? with
  | none => .error (.plain "Invalid OpenAI response: missing data array")
  | some items => (allNumbered 0 items).map byNumber

def orderedVectors (answer : Json) : Outcome (List Embedding) :=
  match (answer.field? "embeddings").bind Json.items? with
  | none => .error (.plain "Invalid Ollama response: missing embeddings array")
  | some items => items.mapM (vector "Ollama")

def openAiUrl : String := "https://api.openai.com/v1"

def ollamaUrl : String := "http://localhost:11434"

def required {α : Type} (what : String) : Option α → Outcome α
  | some x => .ok x
  | none => .error (.plain what)

def keyMissing : String := "OPENAI_API_KEY environment variable not set"

def embeddingBody (model : String) (texts : List String) : Json :=
  Json.ofFields [("model", .str model), ("input", .ofStrings texts)]

end Service

open Service

/-- The service that fails every call, because none is configured. -/
def Embedder.disabled : Embedder where
  model := "disabled"
  dims := 0
  embedTexts _ _ := .error (.plain "embeddings are disabled; set [embedding] provider in chx.toml")

structure EmbeddingService where
  endpoint : Http.Endpoint
  retries : Nat
  model : String
  dims : Nat
  vectors : Json → Outcome (List Embedding)

def EmbeddingService.embedder (s : EmbeddingService) (n : Network) : Embedder where
  model := s.model
  dims := s.dims
  embedTexts call texts :=
    Http.post n s.endpoint s.retries call (embeddingBody s.model texts) >>= s.vectors

namespace EmbeddingSettings

def openAi (s : EmbeddingSettings) (key : Option String) : Outcome EmbeddingService := do
  let model ← required "embedding.model required for OpenAI provider" s.model
  let dims ← required "embedding.dims required for OpenAI provider" s.dims
  let key ← required keyMissing key
  let url := Http.below (s.url.getD openAiUrl) "embeddings"
  return ⟨⟨"OpenAI", url, some ("Bearer " ++ key)⟩, s.maxRetries, model, dims, numberedVectors⟩

def ollama (s : EmbeddingSettings) : Outcome EmbeddingService := do
  let model ← required "embedding.model required for Ollama provider" s.model
  let dims ← required "embedding.dims required for Ollama provider" s.dims
  let url := Http.below (s.url.getD ollamaUrl) "api/embed"
  return ⟨⟨"Ollama", url, none⟩, s.maxRetries, model, dims, orderedVectors⟩

def service (s : EmbeddingSettings) (key : Option String) : Outcome (Option EmbeddingService) :=
  match s.provider with
  | "disabled" => .ok none
  | "openai" => (s.openAi key).map some
  | "ollama" => s.ollama.map some
  | "local" =>
    .error (.plain "Local embedding provider requires --features local-embeddings-fastembed")
  | other => .error (.plain ("Unknown embedding provider: " ++ other))

def embedder (s : EmbeddingSettings) (n : Network) (key : Option String) : Outcome Embedder :=
  (s.service key).map fun v => (v.map (·.embedder n)).getD .disabled

end EmbeddingSettings

end CodeRetrieval
