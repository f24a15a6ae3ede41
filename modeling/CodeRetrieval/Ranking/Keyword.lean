import CodeRetrieval.Ranking.Order
import CodeRetrieval.Text.Casing

/-!
Keyword scores. A term earns points where it occurs in the content or in a name; the sum is
divided by the most points all terms could earn. Documentation makes a fragment a candidate but
earns nothing. The scores are of any type with the arithmetic needed.
-/

set_option autoImplicit false

namespace CodeRetrieval

structure KeywordWeights (σ : Type) where
  content : σ
  name : σ

def KeywordWeights.standard : KeywordWeights Float := ⟨1.0, 2.0⟩

def normalizeTerms (terms : List String) : List String :=
  (terms.map fun t => Text.lower (Text.trim t)).filter (· != "")

structure Searchable where
  content : String
  entity : String
  member : String
  documentation : String

def Fragment.searchable (f : Fragment) : Searchable where
  content := Text.lower f.content
  entity := Text.lower (f.entityName.getD "")
  member := Text.lower (f.memberName.getD "")
  documentation := Text.lower (f.documentation.getD "")

def matchesTerms (f : Fragment) (terms : List String) : Bool :=
  let s := f.searchable
  terms.any fun t =>
    Text.contains s.content t || Text.contains s.entity t || Text.contains s.member t ||
      Text.contains s.documentation t

namespace KeywordWeights

variable {σ : Type} [NatCast σ] [Add σ] [Mul σ] [Div σ] [LE σ] [DecidableLE σ]

/-- The most points that `terms` terms can earn. -/
def maxScore (w : KeywordWeights σ) (terms : Nat) : σ :=
  (terms : σ) * (w.content + ((2 : Nat) : σ) * w.name)

def points (w : KeywordWeights σ) (s : Searchable) (term : String) : σ :=
  let p : σ := ((0 : Nat) : σ)
  let p := if Text.contains s.content term then p + w.content else p
  let p := if Text.contains s.entity term then p + w.name else p
  if Text.contains s.member term then p + w.name else p

/-- Points of all terms, as a part of the most they could be. -/
def score (w : KeywordWeights σ) (f : Fragment) (terms : List String) : σ :=
  let most := w.maxScore terms.length
  if most ≤ ((0 : Nat) : σ) then ((0 : Nat) : σ)
  else
    let s := f.searchable
    terms.foldl (fun sum t => sum + w.points s t) ((0 : Nat) : σ) / most

end KeywordWeights

end CodeRetrieval
