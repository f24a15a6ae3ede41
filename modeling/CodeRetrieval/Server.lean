import CodeRetrieval.Command.Run

/-!
Questions over HTTP. A request is answered with JSON: the answer, or an error with a code that says
whether the request was wrong, a service failed, or something else.
-/

set_option autoImplicit false

namespace CodeRetrieval

structure ServerRequest where
  method : String
  path : String
  contentType : String
  body : String
  deriving DecidableEq, Repr

structure ServerResponse where
  status : Nat
  body : Option Json
  deriving DecidableEq, Repr

inductive ServerError where
  | badRequest (message : String)
  | embeddingsDisabled (message : String)
  | timeout (message : String)
  | serviceFailed (message : String)
  | internal (message : String)
  deriving DecidableEq, Repr

namespace ServerError

def code : ServerError → String
  | badRequest _ => "bad_request"
  | embeddingsDisabled _ => "embeddings_disabled"
  | timeout _ => "timeout"
  | serviceFailed _ => "upstream"
  | internal _ => "internal"

def status : ServerError → Nat
  | badRequest _ => 400
  | embeddingsDisabled _ => 400
  | timeout _ => 408
  | serviceFailed _ => 502
  | internal _ => 500

def message : ServerError → String
  | badRequest m => m
  | embeddingsDisabled m => m
  | timeout m => m
  | serviceFailed m => m
  | internal m => m

def toJson (e : ServerError) : Json := .obj [
  ("error", .obj [("code", .str e.code), ("message", .str e.message)])]

/-- The error for a failure. A service that failed is reported as such unless its messages say that
it is disabled. -/
def ofFailure (f : Failure) : ServerError :=
  let text := f.fullText
  match f.core with
  | .external service _ =>
    if Text.contains text "disabled" then
      if service == "embedding" then embeddingsDisabled text else badRequest text
    else serviceFailed text
  | _ => if Text.contains text "timed out" then timeout text else internal text

end ServerError

structure ServerQuery where
  question : String
  topK : Option Nat
  language : Option String
  kind : Option String
  noHybrid : Bool
  retrieveOnly : Bool
  deriving DecidableEq, Repr

namespace ServerQuery

def optional {α : Type} (read : Json → Option α) (name : String) (v : Json) : Option (Option α) :=
  match v.field? name with
  | none => some none
  | some .null => some none
  | some x => (read x).map some

def flag (name : String) (v : Json) : Option Bool :=
  match v.field? name with
  | none => some false
  | some x => x.bool?

def ofJson? (v : Json) : Option ServerQuery := do
  return {
    question := ← (← v.field? "question").text?
    topK := ← optional Json.nat? "top_k" v
    language := ← optional Json.text? "language" v
    kind := ← optional Json.text? "kind" v
    noHybrid := ← flag "no_hybrid" v
    retrieveOnly := ← flag "retrieve_only" v }

def flags (q : ServerQuery) : QueryFlags :=
  ⟨q.topK, q.language, q.kind, q.noHybrid, true, none⟩

end ServerQuery

namespace Server

variable {S : Type} [Store S]

def answer (r : Retriever S) (q : ServerQuery) : Except ServerError Json :=
  if Text.isBlankText q.question then .error (.badRequest "question must not be empty")
  else
    match Command.queryOptions q.flags with
    | .error f => .error (.badRequest f.message)
    | .ok o =>
      let run : Run Json :=
        if q.retrieveOnly then (Retrieval.toJson .ofWidened ·) <$> r.retrieve q.question o
        else (Answer.toJson .ofWidened ·) <$> r.query q.question o
      (run.result .empty).1.mapError ServerError.ofFailure

def respondWith : Except ServerError Json → ServerResponse
  | .ok v => ⟨200, some v⟩
  | .error e => ⟨e.status, some e.toJson⟩

def isJson (contentType : String) : Bool :=
  let essence := Text.lower (Text.trim ((Text.splitOn ';' contentType).headD ""))
  essence == "application/json" ||
    (Text.startsWith essence "application/" && Text.endsWith essence "+json")

def query (r : Retriever S) (request : ServerRequest) : ServerResponse :=
  if !isJson request.contentType then ⟨415, none⟩
  else
    match Json.parse? request.body with
    | none => ⟨400, none⟩
    | some v =>
      match ServerQuery.ofJson? v with
      | none => ⟨422, none⟩
      | some q => respondWith (answer r q)

def version : String := "0.1.0"

def health : ServerResponse :=
  ⟨200, some (.obj [("status", .str "ok"), ("version", .str version)])⟩

/-- The response to a request. Browsers may ask beforehand whether a request is allowed; it is. -/
def respond (r : Retriever S) (request : ServerRequest) : ServerResponse :=
  if request.method == "OPTIONS" then ⟨200, none⟩
  else
    match request.path, request.method with
    | "/api/query", "POST" => query r request
    | "/api/health", "GET" => health
    | "/api/health", "HEAD" => ⟨200, none⟩
    | "/api/query", _ => ⟨405, none⟩
    | "/api/health", _ => ⟨405, none⟩
    | _, _ => ⟨404, none⟩

def allowedOrigin : String := "*"

def exchange (n : Network) (r : Retriever S) (request : ServerRequest) : Outcome ServerResponse :=
  match n with
  | .unreachable => .error (.plain Network.unreachableMessage)
  | .reaching _ => .ok (respond r request)

end Server

end CodeRetrieval
