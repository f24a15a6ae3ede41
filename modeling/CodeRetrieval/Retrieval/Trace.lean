import CodeRetrieval.Embedding.Batch

set_option autoImplicit false

namespace CodeRetrieval

inductive Status where
  | analyzing
  | searching
  | embedding
  | generating
  | done
  deriving DecidableEq, Repr

structure GenerationRequest where
  prompt : String
  system : Option String
  temperature : Float32
  maxOutputTokens : Nat

/-- A service that writes answers. What it says may depend on how many calls it has had before. -/
structure Generator where
  model : String
  generate : Nat → GenerationRequest → Outcome String

structure Trace where
  statuses : List Status
  embedded : CallLog
  requests : List GenerationRequest

def Trace.empty : Trace := ⟨[], [], []⟩

abbrev Run := ExceptT Failure (StateM Trace)

namespace Run

def result {α : Type} (r : Run α) (t : Trace) : Outcome α × Trace := (ExceptT.run r).run t

def ofOutcome {α : Type} (o : Outcome α) : Run α := ExceptT.mk (pure o)

def report (s : Status) : Run Unit :=
  ExceptT.mk (modifyGet fun t => (.ok (), { t with statuses := t.statuses ++ [s] }))

def embed (e : Embedder) (text : String) : Run Embedding :=
  ExceptT.mk (modifyGet fun t =>
    let (answer, log) := e.embed t.embedded text
    (answer.mapError (.external "embedding"), { t with embedded := log }))

def generate (g : Generator) (request : GenerationRequest) : Run String :=
  ExceptT.mk (modifyGet fun t =>
    ((g.generate t.requests.length request).mapError (.external "generation"),
      { t with requests := t.requests ++ [request] }))

end Run

end CodeRetrieval
