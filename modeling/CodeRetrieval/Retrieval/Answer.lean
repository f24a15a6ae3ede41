import CodeRetrieval.Context
import CodeRetrieval.Retrieval.Find

set_option autoImplicit false

namespace CodeRetrieval

structure Answer where
  text : String
  sources : List (Ranked Float)
  dependencies : List Fragment
  analysis : Option Analysis
  listing : Bool
  model : Option String

namespace Answer

def plain (text : String) : Answer := ⟨text, [], [], none, false, none⟩

def notFound (what name : String) : Answer :=
  plain ("Sorry, " ++ (Failure.lookupMiss what name).message ++ ".")

end Answer

namespace Retriever

variable {S : Type} [Store S]

def instruction (r : Retriever S) : String :=
  r.config.systemPrompt.getD Context.snippetInstruction

def generate (r : Retriever S) (prompt system : String) : Run String := do
  Run.report .generating
  Run.generate r.generator ⟨prompt, some system, r.config.temperature, r.config.maxOutputTokens⟩

def grounding (r : Retriever S) (found : Retrieval) : String × String :=
  let fragments := found.sources.map (·.fragment)
  if found.listing then (Context.listing fragments, Context.listingInstruction)
  else (Context.snippets fragments found.dependencies, r.instruction)

/-- Answers a question from the index. Where nothing is found the generator is not asked. -/
def query (r : Retriever S) (question : String) (o : QueryOptions) : Run Answer := do
  let found ← r.retrieve question o
  if found.sources.isEmpty then
    Run.report .done
    return { Answer.plain Context.noMatchAnswer with analysis := some found.analysis }
  else
    let (context, system) := r.grounding found
    let text ← r.generate (Context.prompt (o.generationQuestion.getD question) context) system
    Run.report .done
    return {
      text
      sources := found.sources
      dependencies := found.dependencies
      analysis := some found.analysis
      listing := found.listing
      model := some r.generator.model }

def lookupQuestion (name : String) : String :=
  "Explain the " ++ name ++ " entity: its purpose, its structure, what it depends on, and " ++
    "which code references it."

def lookup (r : Retriever S) (name : String) : Run Answer := do
  Run.report .searching
  match ← Run.ofOutcome (Store.entityNamed? r.store name) with
  | none =>
    Run.report .done
    return Answer.notFound "entity" name
  | some entity =>
    let fragments ← Run.ofOutcome (entityFragments r.store entity)
    let first ← Run.ofOutcome (Dependency.resolve r.store r.config.dependencies [entity])
    let entityName := entity.entityName.getD name
    let referring ← Run.ofOutcome
      (Store.referencing r.store (Text.afterLast '.' entityName) r.config.dependencies.reverse)
    let dependencies :=
      first ++ Dependency.newOnes ((fragments ++ first).map (·.id)) referring
    let context := Context.snippets fragments dependencies
    let text ← r.generate (Context.prompt (lookupQuestion entityName) context) r.instruction
    Run.report .done
    return {
      text
      sources := exact fragments
      dependencies
      analysis := none
      listing := false
      model := some r.generator.model }

/-- Whether a document is the one meant by a path, by the end of one, or by its name. -/
def isDocumentCalled (target : String) (f : Fragment) : Bool :=
  f.filePath == normalizePath target ||
    Text.endsWith f.filePath ("/" ++ normalizePath target) || f.documentName == target

def resolveNames (s : S) : List String → Outcome (List (String × Option Fragment))
  | [] => .ok []
  | name :: rest => do
    let found ← Store.entityNamed? s name
    let more ← resolveNames s rest
    return (name, found) :: more

def dependencyReport (path : String) (resolved : List Fragment) (missing : List String) : String :=
  s!"{path} references {resolved.length} indexed " ++
    (if resolved.length = 1 then "entity" else "entities") ++
    (if resolved.isEmpty then ""
     else ": " ++ Text.join ", " (resolved.map (·.displayName))) ++ "." ++
    (if missing.isEmpty then "" else " Not indexed: " ++ Text.join ", " missing ++ ".")

/-- The entities that a configuration document refers to. No service is called. -/
def configDependencies (r : Retriever S) (target : String) : Run Answer := do
  let documents ← Run.ofOutcome (Store.listAll r.store ⟨some .configDocument, none⟩)
  match documents.find? (isDocumentCalled target) with
  | none => return Answer.notFound "config document" target
  | some document =>
    let names ← Run.ofOutcome (resolveNames r.store document.references)
    let resolved := names.filterMap (·.2)
    let missing := (names.filter (·.2.isNone)).map (·.1)
    return {
      text := dependencyReport document.filePath resolved missing
      sources := exact [document]
      dependencies := resolved
      analysis := none
      listing := false
      model := none }

end Retriever

end CodeRetrieval
