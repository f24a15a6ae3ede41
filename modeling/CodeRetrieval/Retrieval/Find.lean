import CodeRetrieval.Question.Analysis
import CodeRetrieval.Retrieval.Dependency
import CodeRetrieval.Retrieval.Trace

/-!
Finding the fragments that answer a question. A question for a list of entities gets all of them, a
question on the schema of a known entity gets that entity with its members, and any other question
gets what a hybrid search finds, after the entity it names.
-/

set_option autoImplicit false

namespace CodeRetrieval

/-- What a caller asks for instead of what the analysis recommends. -/
structure QueryOptions where
  topK : Option Nat := none
  similarityFloor : Option Float32 := none
  kind : Option FragmentKind := none
  language : Option String := none
  includeDependencies : Option Bool := none
  useHybrid : Option Bool := none
  /-- The question as the generator sees it; the search always uses the question itself. -/
  generationQuestion : Option String := none

structure RetrieverConfig where
  fusion : Fusion Float
  dependencies : DependencyLimits
  temperature : Float32
  maxOutputTokens : Nat
  systemPrompt : Option String

def RetrieverConfig.standard : RetrieverConfig := ⟨.standard, ⟨5, 5⟩, 0.3, 2048, none⟩

structure Retrieval where
  analysis : Analysis
  sources : List (Ranked Float)
  dependencies : List Fragment
  listing : Bool

structure Retriever (S : Type) where
  store : S
  embedder : Embedder
  generator : Generator
  config : RetrieverConfig

def Analysis.withOptions (a : Analysis) (o : QueryOptions) : Analysis :=
  { a with
    resultCount := o.topK.getD a.resultCount
    similarityFloor := o.similarityFloor.getD a.similarityFloor
    kind := o.kind.or a.kind
    includeDependencies := o.includeDependencies.getD a.includeDependencies }

def Analysis.asksForListing (a : Analysis) : Bool := a.intent == .listCount && a.kind == some .entity

/-- Fragments that were asked for by name: each has the full score. -/
def exact (fragments : List Fragment) : List (Ranked Float) := fragments.map (⟨·, 1.0⟩)

/-- A fragment in front of a ranking, with the full score. -/
def placeFirst (hit : Fragment) (count : Nat) (results : List (Ranked Float)) :
    List (Ranked Float) :=
  (⟨hit, 1.0⟩ :: results.filter (·.fragment.id != hit.id)).take (max 1 count)

namespace Retriever

variable {S : Type} [Store S]

def directHit (s : S) : List String → Outcome (Option Fragment)
  | [] => .ok none
  | name :: rest => do
    match ← Store.entityNamed? s name with
    | some f => return some f
    | none => directHit s rest

/-- An entity, then the other fragments of its name by line. -/
def entityFragments (s : S) (entity : Fragment) : Outcome (List Fragment) := do
  let all ← Store.fragmentsOf s (entity.entityName.getD "")
  return entity :: all.filter (·.id != entity.id)

def searched (r : Retriever S) (question : String) (o : QueryOptions) (a : Analysis)
    (hit : Option Fragment) : Run (List (Ranked Float)) := do
  Run.report .embedding
  let vector ← Run.embed r.embedder question
  let results ← Run.ofOutcome (hybridSearch r.store {
    vector
    terms := a.searchTerms
    count := a.resultCount
    filter := ⟨a.kind, o.language⟩
    floor := a.similarityFloor
    fusion := { r.config.fusion with
      useHybrid := o.useHybrid.getD r.config.fusion.useHybrid } })
  match hit with
  | some f => return placeFirst f a.resultCount results
  | none => return results

/-- The sources for an analysed question, and whether they are a complete listing. -/
def sourcesFor (r : Retriever S) (question : String) (o : QueryOptions) (a : Analysis)
    (hit : Option Fragment) : Run (List (Ranked Float) × Bool) := do
  match hit, a.intent with
  | some f, .schema => return (exact (← Run.ofOutcome (entityFragments r.store f)), false)
  | _, _ =>
    if a.asksForListing then
      return (exact (← Run.ofOutcome (Store.listAll r.store ⟨a.kind, o.language⟩)), true)
    else return (← r.searched question o a hit, false)

/-- Finds what answers a question. -/
def retrieve (r : Retriever S) (question : String) (o : QueryOptions) : Run Retrieval := do
  Run.report .analyzing
  let a := (Analysis.ofQuestion question).withOptions o
  Run.report .searching
  let hit ← Run.ofOutcome (directHit r.store a.entityNames)
  let (sources, listing) ← r.sourcesFor question o a hit
  let dependencies ←
    if a.includeDependencies && !listing then
      Run.ofOutcome (Dependency.resolve r.store r.config.dependencies
        (sources.map (·.fragment)))
    else pure []
  return ⟨a, sources, dependencies, listing⟩

end Retriever

end CodeRetrieval
