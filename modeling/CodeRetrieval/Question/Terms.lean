import CodeRetrieval.Distinct
import CodeRetrieval.Text.Casing
import CodeRetrieval.Text.Basic

set_option autoImplicit false

namespace CodeRetrieval.Terms

def commonWords : List String := [
  "I", "A", "The", "How", "What", "When", "Where", "Why", "Which", "Who", "This", "That", "These",
  "Those", "It", "Is", "Are", "Was", "Were", "Has", "Have", "Had", "Do", "Does", "Did", "Will",
  "Would", "Should", "Can", "Could", "May", "Might", "Must", "Shall", "To", "From", "For", "With",
  "Without", "By", "In", "On", "At", "Of", "And", "Or", "But", "Show", "List", "Tell", "Explain",
  "Describe", "Compare", "Find"]

def stopWords : List String := [
  "the", "a", "an", "is", "are", "was", "were", "be", "been", "being", "have", "has", "had", "do",
  "does", "did", "will", "would", "could", "should", "may", "might", "must", "shall", "can",
  "need", "dare", "ought", "used", "to", "of", "in", "for", "on", "with", "at", "by", "from",
  "as", "into", "through", "during", "before", "after", "above", "below", "between", "under",
  "again", "further", "then", "once", "what", "which", "who", "whom", "this", "that", "these",
  "those", "am", "it", "its", "and", "but", "if", "or", "because", "until", "while", "how",
  "where", "when", "why", "all", "each", "every", "both", "few", "more", "most", "other", "some",
  "such", "no", "nor", "not", "only", "own", "same", "so", "than", "too", "very", "just", "also",
  "now", "here", "there", "me", "my", "i", "you", "your", "we", "our", "they", "their", "show",
  "tell", "get", "find", "search", "look", "describe", "explain", "list"]

/-- Terms and what is related to them. The relation is used in both directions. -/
def synonyms : List (String × List String) := [
  ("auth", ["authentication", "authorize", "login", "credential", "token", "session",
    "security"]),
  ("authentication", ["auth", "login", "credential", "token", "session", "security"]),
  ("login", ["auth", "authentication", "signin", "credential", "session"]),
  ("security", ["auth", "authentication", "permission", "role", "access", "token"]),
  ("save", ["persist", "store", "write", "insert", "create", "update"]),
  ("load", ["read", "fetch", "get", "retrieve", "query"]),
  ("delete", ["remove", "destroy", "drop", "clear"]),
  ("update", ["modify", "change", "edit", "patch", "save"]),
  ("api", ["endpoint", "rest", "controller", "route", "handler"]),
  ("request", ["http", "call", "invoke", "fetch"]),
  ("response", ["result", "return", "output"]),
  ("database", ["db", "repository", "dao", "store", "persistence"]),
  ("query", ["select", "find", "search", "filter"]),
  ("table", ["entity", "model", "schema", "record"]),
  ("error", ["exception", "failure", "fault", "issue"]),
  ("exception", ["error", "throw", "catch", "handle"]),
  ("validation", ["validate", "check", "verify", "sanitize"]),
  ("config", ["configuration", "settings", "properties", "options"]),
  ("util", ["utility", "helper", "common", "shared"]),
  ("service", ["manager", "handler", "processor", "provider"]),
  ("factory", ["builder", "creator", "generator"]),
  ("payment", ["pay", "transaction", "checkout", "billing", "charge", "invoice"]),
  ("transaction", ["payment", "transfer", "operation"]),
  ("user", ["account", "profile", "member", "customer"]),
  ("account", ["user", "profile", "credential"])]

def maxPrimary : Nat := 10
def maxExpanded : Nat := 15
def maxKeywords : Nat := 10

def isTypeName (word : String) : Bool :=
  match word.toList with
  | [] => false
  | c :: rest => c.isUpper && rest.all Char.isAlphanum

def isMemberName (word : String) : Bool :=
  match word.toList with
  | [] => false
  | c :: rest => c.isLower && rest.all Char.isAlphanum && rest.any Char.isUpper

def isPlainWord (word : String) : Bool :=
  match word.toList with
  | [] => false
  | c :: rest => c.isLower && rest.all fun d => d.isLower || d.isDigit || d == '_'

def entityNames (question : String) : List String :=
  distinct ((Text.words question).filter fun w =>
    isTypeName w && 2 ≤ w.length && !commonWords.contains w)

def memberNames (question : String) : List String :=
  distinct ((Text.words question).filter isMemberName)

def plainWords (lowered : String) : List String :=
  (Text.words lowered).filter fun w => isPlainWord w && 2 < w.length && !stopWords.contains w

def primary (lowered : String) (entities members : List String) : List String :=
  let names := entities ++ members
  (names ++ distinctFrom id (names.map Text.lower) (plainWords lowered)).take maxPrimary

def related (term : String) : List String :=
  synonyms.flatMap fun (key, others) =>
    if key == Text.lower term then others
    else if others.contains (Text.lower term) then key :: others
    else []

/-- Related terms that are no primary terms themselves. -/
def expanded (primary : List String) : List String :=
  let known := primary.map Text.lower
  (distinct ((primary.flatMap related).filter (!known.contains ·))).take maxExpanded

end CodeRetrieval.Terms
