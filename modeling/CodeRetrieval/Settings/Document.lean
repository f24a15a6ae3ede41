import CodeRetrieval.Settings.Check
import CodeRetrieval.Toml.Document
import CodeRetrieval.Toml.Printer

/-!
Settings as a TOML document. Every entry may be left out, and entries of other names are not looked
at; a section may also be written as the list of its values in order.
-/

set_option autoImplicit false

namespace CodeRetrieval

namespace Toml

abbrev Fields := List (String × Toml)

def text? : Toml → Option String
  | str s => some s
  | _ => none

def flag? : Toml → Option Bool
  | bool b => some b
  | _ => none

def below? (limit : Nat) : Toml → Option Nat
  | int n => if 0 ≤ n ∧ n < limit then some n.toNat else none
  | _ => none

def size? : Toml → Option Nat := below? UInt64.size

def double? : Toml → Option Float
  | float bits => some (Float.ofBits bits)
  | int n => some (Float.ofInt n)
  | _ => none

def single? (v : Toml) : Option Float32 := v.double?.map Float.toFloat32

def texts? : Toml → Option (List String)
  | arr items => items.mapM text?
  | _ => none

def optional {α : Type} (read : Toml → Option α) (name : String) (es : Fields) :
    Option (Option α) :=
  match es.lookup name with
  | none => some none
  | some v => (read v).map some

def entry {α : Type} (read : Toml → Option α) (name : String) (default : α) (es : Fields) :
    Option α :=
  (optional read name es).map (·.getD default)

/-- The entries of a section with some names. A date or a time counts as a section without any. -/
def section? (name : String) (names : List String) (es : Fields) : Option Fields :=
  match es.lookup name with
  | none => some []
  | some (table entries) => some entries
  | some (arr items) => some (names.zip items)
  | some (datetime _) => some []
  | some _ => none

end Toml

open Toml

namespace IndexSettings

def names : List String := ["root", "exclude_globs", "follow_symlinks"]

def ofEntries? (es : Fields) : Option IndexSettings := do
  return {
    root := ← entry text? "root" standard.root es
    excludeGlobs := ← entry texts? "exclude_globs" standard.excludeGlobs es
    followSymlinks := ← entry flag? "follow_symlinks" standard.followSymlinks es }

def entries (s : IndexSettings) : Fields := [
  ("root", .str s.root),
  ("exclude_globs", .arr (s.excludeGlobs.map .str)),
  ("follow_symlinks", .bool s.followSymlinks)]

end IndexSettings

namespace ChunkLimits

def names : List String := [
  "min_chunk_lines", "max_chunk_lines", "max_file_lines", "min_member_chars", "include_members",
  "include_documentation"]

def ofEntries? (es : Fields) : Option ChunkLimits := do
  return {
    minChunkLines := ← entry size? "min_chunk_lines" standard.minChunkLines es
    maxChunkLines := ← entry size? "max_chunk_lines" standard.maxChunkLines es
    maxFileLines := ← entry size? "max_file_lines" standard.maxFileLines es
    minMemberChars := ← entry size? "min_member_chars" standard.minMemberChars es
    includeMembers := ← entry flag? "include_members" standard.includeMembers es
    includeDocumentation :=
      ← entry flag? "include_documentation" standard.includeDocumentation es }

def entries (c : ChunkLimits) : Fields := [
  ("min_chunk_lines", .int c.minChunkLines),
  ("max_chunk_lines", .int c.maxChunkLines),
  ("max_file_lines", .int c.maxFileLines),
  ("min_member_chars", .int c.minMemberChars),
  ("include_members", .bool c.includeMembers),
  ("include_documentation", .bool c.includeDocumentation)]

end ChunkLimits

namespace RetrievalSettings

def names : List String := [
  "use_hybrid", "rrf_k", "keyword_boost", "keyword_content_weight", "keyword_name_weight",
  "max_deps_per_unit", "reverse_dependency_limit"]

def ofEntries? (es : Fields) : Option RetrievalSettings := do
  return {
    fusion := {
      useHybrid := ← entry flag? "use_hybrid" standard.fusion.useHybrid es
      rrfK := ← entry double? "rrf_k" standard.fusion.rrfK es
      keywordBoost := ← entry double? "keyword_boost" standard.fusion.keywordBoost es }
    weights := {
      content := ← entry double? "keyword_content_weight" standard.weights.content es
      name := ← entry double? "keyword_name_weight" standard.weights.name es }
    dependencies := {
      perFragment := ← entry size? "max_deps_per_unit" standard.dependencies.perFragment es
      reverse := ← entry size? "reverse_dependency_limit" standard.dependencies.reverse es } }

def entries (r : RetrievalSettings) : Fields := [
  ("use_hybrid", .bool r.fusion.useHybrid),
  ("rrf_k", .float r.fusion.rrfK.toBits),
  ("keyword_boost", .float r.fusion.keywordBoost.toBits),
  ("keyword_content_weight", .float r.weights.content.toBits),
  ("keyword_name_weight", .float r.weights.name.toBits),
  ("max_deps_per_unit", .int r.dependencies.perFragment),
  ("reverse_dependency_limit", .int r.dependencies.reverse)]

end RetrievalSettings

def Toml.entryOf {α : Type} (name : String) (write : α → Toml) (v : Option α) : Fields :=
  (v.map fun x => (name, write x)).toList

namespace EmbeddingSettings

def names : List String := [
  "provider", "model", "dims", "url", "batch_size", "max_tokens_per_batch", "chars_per_token",
  "max_retries", "timeout_secs"]

def ofEntries? (es : Fields) : Option EmbeddingSettings := do
  return {
    provider := ← entry text? "provider" standard.provider es
    model := ← optional text? "model" es
    dims := ← optional size? "dims" es
    url := ← optional text? "url" es
    batchSize := ← entry size? "batch_size" standard.batchSize es
    maxTokensPerBatch := ← entry size? "max_tokens_per_batch" standard.maxTokensPerBatch es
    charsPerToken := ← entry double? "chars_per_token" standard.charsPerToken es
    maxRetries := ← entry (below? UInt32.size) "max_retries" standard.maxRetries es
    timeoutSecs := ← entry size? "timeout_secs" standard.timeoutSecs es }

def entries (e : EmbeddingSettings) : Fields :=
  [("provider", .str e.provider)] ++ entryOf "model" .str e.model ++
    entryOf "dims" (fun n => .int (n : Nat)) e.dims ++ entryOf "url" .str e.url ++ [
      ("batch_size", .int e.batchSize),
      ("max_tokens_per_batch", .int e.maxTokensPerBatch),
      ("chars_per_token", .float e.charsPerToken.toBits),
      ("max_retries", .int e.maxRetries),
      ("timeout_secs", .int e.timeoutSecs)]

end EmbeddingSettings

namespace GenerationSettings

def names : List String := [
  "provider", "model", "url", "temperature", "max_output_tokens", "timeout_secs",
  "system_prompt"]

def ofEntries? (es : Fields) : Option GenerationSettings := do
  return {
    provider := ← entry text? "provider" standard.provider es
    model := ← optional text? "model" es
    url := ← optional text? "url" es
    temperature := ← entry single? "temperature" standard.temperature es
    maxOutputTokens := ← entry (below? UInt32.size) "max_output_tokens" standard.maxOutputTokens es
    timeoutSecs := ← entry size? "timeout_secs" standard.timeoutSecs es
    systemPrompt := ← optional text? "system_prompt" es }

def entries (g : GenerationSettings) : Fields :=
  [("provider", .str g.provider)] ++ entryOf "model" .str g.model ++ entryOf "url" .str g.url ++ [
    ("temperature", .float g.temperature.toFloat.toBits),
    ("max_output_tokens", .int g.maxOutputTokens),
    ("timeout_secs", .int g.timeoutSecs)] ++ entryOf "system_prompt" .str g.systemPrompt

end GenerationSettings

namespace Settings

def ofEntries? (es : Fields) : Option Settings := do
  let db ← section? "db" ["path"] es
  let session ← section? "session" ["max_turns"] es
  let server ← section? "server" ["bind"] es
  return {
    databasePath := ← entry text? "path" standard.databasePath db
    index := ← IndexSettings.ofEntries? (← section? "index" IndexSettings.names es)
    chunking := ← ChunkLimits.ofEntries? (← section? "chunking" ChunkLimits.names es)
    retrieval := ← RetrievalSettings.ofEntries? (← section? "retrieval" RetrievalSettings.names es)
    embedding := ← EmbeddingSettings.ofEntries? (← section? "embedding" EmbeddingSettings.names es)
    generation :=
      ← GenerationSettings.ofEntries? (← section? "generation" GenerationSettings.names es)
    maxTurns := ← entry size? "max_turns" standard.maxTurns session
    bind := ← entry text? "bind" standard.bind server }

def parse (text : String) : Outcome Settings :=
  match (Toml.parse? text).bind ofEntries? with
  | none =>
    .error (.context "Failed to parse config file" (.plain "the document does not hold settings"))
  | some s => s.check

def entries (s : Settings) : Fields := [
  ("db", .table [("path", .str s.databasePath)]),
  ("index", .table s.index.entries),
  ("chunking", .table s.chunking.entries),
  ("retrieval", .table s.retrieval.entries),
  ("embedding", .table s.embedding.entries),
  ("generation", .table s.generation.entries),
  ("session", .table [("max_turns", .int s.maxTurns)]),
  ("server", .table [("bind", .str s.bind)])]

def text (s : Settings) : String := Toml.print s.entries

end Settings

end CodeRetrieval
