import CodeRetrieval.Distinct
import CodeRetrieval.Store.Basic

/-!
Fragments related to those found: the entities they refer to and, for documents, the fragments that
refer to them.
-/

set_option autoImplicit false

namespace CodeRetrieval

structure DependencyLimits where
  perFragment : Nat
  reverse : Nat
  deriving DecidableEq, Repr

namespace Dependency

variable {S : Type} [Store S]

def entitiesNamed (s : S) : List String → Outcome (List Fragment)
  | [] => .ok []
  | name :: rest => do
    let found ← Store.entityNamed? s name
    let more ← entitiesNamed s rest
    return found.toList ++ more

def relatedTo (s : S) (limits : DependencyLimits) (f : Fragment) : Outcome (List Fragment) := do
  let named ← entitiesNamed s (f.references.take limits.perFragment)
  let referring ←
    if f.kind.isDocument then Store.referencing s f.documentName limits.reverse else pure []
  return named ++ referring

def candidates (s : S) (limits : DependencyLimits) : List Fragment → Outcome (List Fragment)
  | [] => .ok []
  | f :: rest => do
    let here ← relatedTo s limits f
    let more ← candidates s limits rest
    return here ++ more

def newOnes (seen : List String) (fragments : List Fragment) : List Fragment :=
  distinctFrom (·.id) seen fragments

/-- The fragments related to some sources and not among them, in the order in which they are
found. -/
def resolve (s : S) (limits : DependencyLimits) (sources : List Fragment) :
    Outcome (List Fragment) :=
  (candidates s limits sources).map (newOnes (sources.map (·.id)))

end Dependency

end CodeRetrieval
