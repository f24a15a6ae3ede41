import CodeRetrieval.Fragment.Kind
import CodeRetrieval.Question.Intent

/-!
What an intent recommends for the retrieval: how many results, how similar they have to be, whether
related fragments are added, and which kind of fragment is wanted.
-/

set_option autoImplicit false

namespace CodeRetrieval

inductive KindRule where
  | none
  | entity
  | entityIfDetected
  deriving DecidableEq, Repr

def KindRule.kind (namesEntity : Bool) : KindRule → Option FragmentKind
  | .none => Option.none
  | .entity => some .entity
  | .entityIfDetected => if namesEntity then some .entity else Option.none

structure Policy where
  resultCount : Nat
  similarityFloor : Float32
  includeDependencies : Bool
  kindRule : KindRule

def Intent.policy : Intent → Policy
  | .definition => ⟨5, 0.6, false, .entityIfDetected⟩
  | .explanation => ⟨10, 0.5, true, .none⟩
  | .listCount => ⟨50, 0.3, false, .entity⟩
  | .usage => ⟨15, 0.5, false, .none⟩
  | .comparison => ⟨10, 0.5, false, .none⟩
  | .schema => ⟨10, 0.5, true, .entity⟩
  | .search => ⟨10, 0.5, false, .none⟩

end CodeRetrieval
