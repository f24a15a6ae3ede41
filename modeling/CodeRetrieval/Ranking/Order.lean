import CodeRetrieval.Fragment.Basic

set_option autoImplicit false

namespace CodeRetrieval

instance natCastFloat : NatCast Float := ⟨Float.ofNat⟩

variable {σ : Type} [LT σ] [DecidableLT σ]

/-- Ranked fragments in order. Sorting by id first and then, stably, by score leaves ties in the
order of their ids. -/
def ranking (results : List (Ranked σ)) : List (Ranked σ) :=
  (results.mergeSort fun a b => a.fragment.id ≤ b.fragment.id).mergeSort fun a b =>
    !decide (a.score < b.score)

def rank (topK : Nat) (results : List (Ranked σ)) : List (Ranked σ) := (ranking results).take topK

end CodeRetrieval
