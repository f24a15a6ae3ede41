import CodeRetrieval.Retrieval.Trace
import CodeRetrieval.Service.Embedding

set_option autoImplicit false

namespace CodeRetrieval

namespace Service

def wrongValue : Json → String
  | .null => "null"
  | .bool b => "boolean " ++ quoted (if b then "true" else "false")
  | .num (.whole n) => "integer " ++ quoted (toString n)
  | .num (.double bits) =>
    "floating point " ++ quoted (String.ofList (Json.Number.double bits).text)
  | .str s => "string " ++ String.ofList (Json.quote s)
  | .arr _ => "sequence"
  | .obj _ => "map"
where
  quoted (s : String) : String := String.ofList (Char.ofNat 96 :: s.toList ++ [Char.ofNat 96])

def wrongType (v : Json) (expected : String) : String :=
  "invalid type: " ++ wrongValue v ++ ", expected " ++ expected

def missingField (name : String) : String :=
  "missing field " ++ wrongValue.quoted name

def textOf (v : Json) : Except String String :=
  match v with
  | .str s => .ok s
  | v => .error (wrongType v "a string")

def fieldOf {α : Type} (read : Json → Except String α) (name : String)
    (fields : List (String × Json)) : Except String α :=
  match fields.lookup name with
  | some v => read v
  | none => .error (missingField name)

/-- A value that is optional while the fields are looked at one by one: a wrong value counts before
a missing one. -/
def checkField {α : Type} (read : Json → Except String α) (name : String)
    (fields : List (String × Json)) : Except String Unit :=
  match fields.lookup name with
  | some v => (read v).map fun _ => ()
  | none => .ok ()

def messageText (v : Json) : Except String String :=
  match v with
  | .obj fields => do
    checkField textOf "content" fields
    checkField textOf "role" fields
    let _ ← fieldOf textOf "role" fields
    fieldOf textOf "content" fields
  | .arr [role, content] => do
    let _ ← textOf role
    textOf content
  | .arr [] => .error "invalid length 0, expected struct Message with 2 elements"
  | .arr [_] => .error "invalid length 1, expected struct Message with 2 elements"
  | .arr items => .error s!"invalid length {items.length}, expected fewer elements in array"
  | v => .error (wrongType v "struct Message")

def messageIn (type : String) (v : Json) : Except String String :=
  match v with
  | .obj fields => fieldOf messageText "message" fields
  | .arr [m] => messageText m
  | .arr [] => .error ("invalid length 0, expected struct " ++ type ++ " with 1 element")
  | .arr items => .error s!"invalid length {items.length}, expected fewer elements in array"
  | v => .error (wrongType v ("struct " ++ type))

def choiceTexts (v : Json) : Except String (List String) :=
  match v with
  | .arr items => items.mapM (messageIn "OpenAiChoice")
  | v => .error (wrongType v "a sequence")

def firstChoice (answer : Json) : Outcome String :=
  let read : Except String (List String) := match answer with
    | .obj fields => fieldOf choiceTexts "choices" fields
    | .arr [choices] => choiceTexts choices
    | .arr [] => .error "invalid length 0, expected struct OpenAiChatResponse with 1 element"
    | .arr items => .error s!"invalid length {items.length}, expected fewer elements in array"
    | v => .error (wrongType v "struct OpenAiChatResponse")
  match read with
  | .error why => .error (.plain ("Invalid OpenAI chat response: " ++ why))
  | .ok [] => .error (.plain "Invalid OpenAI chat response: no choices")
  | .ok (text :: _) => .ok text

def onlyMessage (answer : Json) : Outcome String :=
  (messageIn "OllamaChatResponse" answer).mapError fun why =>
    .plain ("Invalid Ollama chat response: " ++ why)

def messages (r : GenerationRequest) : Json :=
  let message (role text : String) : Json :=
    Json.ofFields [("role", .str role), ("content", .str text)]
  .arr ((r.system.map (message "system")).toList ++ [message "user" r.prompt])

def temperature (r : GenerationRequest) : Json :=
  if r.temperature.isFinite then .ofFloat r.temperature.toFloat else .null

def openAiBody (model : String) (r : GenerationRequest) : Json :=
  Json.ofFields [("model", .str model), ("messages", messages r),
    ("temperature", temperature r), ("max_tokens", .ofNat r.maxOutputTokens)]

def ollamaBody (model : String) (r : GenerationRequest) : Json :=
  Json.ofFields [("model", .str model), ("messages", messages r), ("stream", .bool false),
    ("options", Json.ofFields [("temperature", temperature r),
      ("num_predict", .ofNat r.maxOutputTokens)])]

def generationRetries : Nat := 2

end Service

open Service

def Generator.disabled : Generator where
  model := "disabled"
  generate _ _ := .error (.plain
    "generation is disabled; set [generation] provider in chx.toml or use --retrieve-only")

structure GenerationService where
  endpoint : Http.Endpoint
  model : String
  body : GenerationRequest → Json
  text : Json → Outcome String

def GenerationService.generator (s : GenerationService) (n : Network) : Generator where
  model := s.model
  generate call r := Http.post n s.endpoint generationRetries call (s.body r) >>= s.text

namespace GenerationSettings

def openAi (s : GenerationSettings) (key : Option String) : Outcome GenerationService := do
  let model ← required "generation.model required for OpenAI provider" s.model
  let key ← required keyMissing key
  let url := Http.below (s.url.getD openAiUrl) "chat/completions"
  return ⟨⟨"OpenAI chat", url, some ("Bearer " ++ key)⟩, model, openAiBody model, firstChoice⟩

def ollama (s : GenerationSettings) : Outcome GenerationService := do
  let model ← required "generation.model required for Ollama provider" s.model
  let url := Http.below (s.url.getD ollamaUrl) "api/chat"
  return ⟨⟨"Ollama chat", url, none⟩, model, ollamaBody model, onlyMessage⟩

def service (s : GenerationSettings) (key : Option String) : Outcome (Option GenerationService) :=
  match s.provider with
  | "disabled" => .ok none
  | "openai" => (s.openAi key).map some
  | "ollama" => s.ollama.map some
  | other => .error (.plain ("Unknown generation provider: " ++ other))

def generator (s : GenerationSettings) (n : Network) (key : Option String) : Outcome Generator :=
  (s.service key).map fun v => (v.map (·.generator n)).getD .disabled

end GenerationSettings

end CodeRetrieval
