import CodeRetrieval.Ranking.Order

/-!
Fusion of two ranked lists by reciprocal ranks: a fragment earns `1 / (k + place)` from each list it
is in, and the part from the keyword list is multiplied by a boost. Only places count, never the
scores inside the lists.
-/

set_option autoImplicit false

namespace CodeRetrieval

structure Fusion (σ : Type) where
  useHybrid : Bool
  rrfK : σ
  keywordBoost : σ

def Fusion.standard : Fusion Float := ⟨true, 60.0, 1.1⟩

namespace Fusion

variable {σ : Type} [NatCast σ] [Add σ] [Mul σ] [Div σ] [LT σ] [DecidableLT σ]

/-- What a place, counted from zero, earns in a list of the given weight. -/
def contribution (p : Fusion σ) (weight : σ) (place : Nat) : σ :=
  weight / (p.rrfK + (place : σ) + ((1 : Nat) : σ))

/-- Adds to the score of a fragment; one that is new comes in at the end with that score. -/
def credit (f : Fragment) (points : σ) : List (Ranked σ) → List (Ranked σ)
  | [] => [⟨f, ((0 : Nat) : σ) + points⟩]
  | r :: rest =>
    if r.fragment.id = f.id then ⟨r.fragment, r.score + points⟩ :: rest
    else r :: credit f points rest

def creditList (p : Fusion σ) (weight : σ) (place : Nat) (acc : List (Ranked σ)) :
    List Fragment → List (Ranked σ)
  | [] => acc
  | f :: rest =>
    creditList p weight (place + 1) (credit f (p.contribution weight place) acc) rest

def scores (p : Fusion σ) (semantic keyword : List (Ranked σ)) : List (Ranked σ) :=
  let first := p.creditList ((1 : Nat) : σ) 0 [] (semantic.map (·.fragment))
  ranking (p.creditList p.keywordBoost 0 first (keyword.map (·.fragment)))

/-- Scores as parts of the highest one, if that is positive. -/
def normalize (results : List (Ranked σ)) : List (Ranked σ) :=
  match results with
  | [] => []
  | top :: _ =>
    if ((0 : Nat) : σ) < top.score then
      results.map fun r => ⟨r.fragment, r.score / top.score⟩
    else results

/-- The first fragments of the fused order with scaled scores. -/
def fuse (p : Fusion σ) (semantic keyword : List (Ranked σ)) (limit : Nat) : List (Ranked σ) :=
  (normalize (p.scores semantic keyword)).take limit

end Fusion

end CodeRetrieval
