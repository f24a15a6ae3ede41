import CodeRetrieval.Question.Policy
import CodeRetrieval.Question.Terms

set_option autoImplicit false

namespace CodeRetrieval

structure Analysis where
  intent : Intent
  primaryTerms : List String
  expandedTerms : List String
  entityNames : List String
  memberNames : List String
  resultCount : Nat
  similarityFloor : Float32
  includeDependencies : Bool
  kind : Option FragmentKind

namespace Analysis

def ofQuestion (question : String) : Analysis :=
  let lowered := Text.lower (Text.trim question)
  let entities := Terms.entityNames question
  let members := Terms.memberNames question
  let intent := Intent.detect lowered
  let primary := Terms.primary lowered entities members
  { intent
    primaryTerms := primary
    expandedTerms := Terms.expanded primary
    entityNames := entities
    memberNames := members
    resultCount := intent.policy.resultCount
    similarityFloor := intent.policy.similarityFloor
    includeDependencies := intent.policy.includeDependencies
    kind := intent.policy.kindRule.kind (!entities.isEmpty) }

/-- Entity, member and primary terms, none twice when case is ignored. -/
def keywords (a : Analysis) : List String :=
  (distinctOn Text.lower (a.entityNames ++ a.memberNames ++ a.primaryTerms)).take
    Terms.maxKeywords

def searchTerms (a : Analysis) : List String :=
  distinctOn Text.lower (a.primaryTerms ++ a.expandedTerms)

end Analysis

end CodeRetrieval
