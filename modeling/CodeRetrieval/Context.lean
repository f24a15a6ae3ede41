import CodeRetrieval.Fragment.Basic

/-!
The text that grounds an answer. A listing holds nothing but the complete list of fragments, so
that it cannot be taken for a selection; snippets are shown whole, and what they depend on after
them.
-/

set_option autoImplicit false

namespace CodeRetrieval.Context

def snippetInstruction : String :=
"You are an expert software engineer assistant. Your task is to answer questions about a codebase using the provided code snippets as context.

Guidelines:
- Answer based ONLY on the provided code snippets
- If the answer is not in the provided code, say so clearly
- Include specific file paths and line numbers when referencing code
- Provide code snippets in your answer when relevant
- Be concise but thorough"

def listingInstruction : String :=
"You are an expert software engineer assistant. The context is the COMPLETE list of matching entities in the indexed codebase, not a sample.

Guidelines:
- Treat the list as exhaustive when counting or enumerating
- Report counts exactly as they appear in the list
- Group or filter the list as the question asks
- Do not invent entities that are not in the list"

def noMatchAnswer : String :=
  "No indexed code matched this question. Try different terms or re-run `chx index`."

def fenced (f : Fragment) : String := "```" ++ f.language ++ "\n" ++ f.content ++ "\n```"

def summary? (f : Fragment) : Option String :=
  f.documentation.bind fun d => ((Text.lines d).map Text.trim).find? (!·.isEmpty)

def listingLine (f : Fragment) (number : Nat) : String :=
  let kind := (f.metadataText? "entity_kind").getD f.kind.name
  s!"\n{number}. {f.displayName} [{kind}] ({f.location})" ++
    match summary? f with
    | some s => " - " ++ s
    | none => ""

def listing (fragments : List Fragment) : String :=
  s!"Complete list of {fragments.length} indexed entities:\n" ++
    Text.join "" (fragments.zipIdx.map fun (f, i) => listingLine f (i + 1))

def snippet (f : Fragment) (number : Nat) : String :=
  s!"--- Code Snippet {number} ({f.location}) ---" ++
    (match f.documentation with
      | some d => "\nDocumentation: " ++ d
      | none => "") ++
    (if f.references.isEmpty then "" else "\nReferences: " ++ Text.join ", " f.references) ++
    "\n\n" ++ fenced f

def dependency (f : Fragment) (number : Nat) : String :=
  s!"--- Dependency {number}: {f.displayName} ({f.location}) ---\n\n" ++ fenced f

def snippets (sources dependencies : List Fragment) : String :=
  Text.join "\n\n" (
    (sources.zipIdx.map fun (f, i) => snippet f (i + 1)) ++
    (if dependencies.isEmpty then []
     else "=== Dependencies ===" :: dependencies.zipIdx.map fun (f, i) => dependency f (i + 1)))

def prompt (question context : String) : String :=
  "Based on the following code snippets from the codebase, answer the question.\n\n" ++ context ++
    "\n\n---\n\nQuestion: " ++ question ++ "\n\nAnswer:"

end CodeRetrieval.Context
