import CodeRetrieval.Text.Basic

set_option autoImplicit false

namespace CodeRetrieval

inductive Intent where
  | definition
  | explanation
  | listCount
  | usage
  | comparison
  | schema
  | search
  deriving DecidableEq, Repr

namespace Intent

def name : Intent → String
  | definition => "definition"
  | explanation => "explanation"
  | listCount => "list_count"
  | usage => "usage"
  | comparison => "comparison"
  | schema => "schema"
  | search => "search"

/-- The rules in order of precedence. Singular phrases such as "which class" are no listing
phrases: they ask for one recommendation. -/
def rules : List (Intent × List String) := [
  (listCount, ["list all", "list the", "show all", "what are all", "what are the",
    "which classes", "which methods", "which files", "which ones", "which all", "how many",
    "count", "enumerate", "all the", "all indexed", "all classes", "all methods"]),
  (schema, ["schema", "database schema", "table", "tables", "ddl", "entity", "entities", "orm",
    "jpa", "hibernate", "model", "fields"]),
  (usage, ["where is", "who uses", "what uses", "what calls", "called by", "used by",
    "references to", "usages of", "find usages"]),
  (comparison, ["compare", "difference between", "vs", "versus", "differ", "similar to",
    "different from"]),
  (definition, ["what is", "what's", "define", "describe", "tell me about", "show me",
    "get me"]),
  (explanation, ["how does", "how do", "explain", "why does", "why do", "how is", "how are",
    "what happens when", "walk through", "which class will", "which method will",
    "which should", "which would", "which can"])]

/-- Whether a phrase stands in a text with no word character directly before or after it;
`opened` says that none stands directly before the text. -/
def standsFrom (phrase : List Char) (opened : Bool) : List Char → Bool
  | [] => false
  | c :: rest =>
    (opened && match Text.Chars.afterLead phrase (c :: rest) with
      | some [] => true
      | some (d :: _) => !Text.isWord d
      | none => false) ||
    standsFrom phrase (!Text.isWord c) rest

def standsIn (phrase text : String) : Bool := standsFrom phrase.toList true text.toList

def detect (text : String) : Intent :=
  match rules.find? fun (_, phrases) => phrases.any (standsIn · text) with
  | some (intent, _) => intent
  | none => search

end Intent

end CodeRetrieval
