import CodeRetrieval.Embedding.Vector
import CodeRetrieval.Failure
import CodeRetrieval.Ranking.Fusion

set_option autoImplicit false

namespace CodeRetrieval

structure Filter where
  kind : Option FragmentKind := none
  language : Option String := none
  deriving DecidableEq, Repr

def Filter.accepts (flt : Filter) (f : Fragment) : Bool :=
  flt.kind.all (f.kind == ·) && flt.language.all (f.language == ·)

structure StoreStats where
  totalUnits : Nat
  byLanguage : List (String × Nat)
  byKind : List (String × Nat)
  files : Nat
  embedded : Nat
  deriving DecidableEq, Repr

def nameLe : Option String → Option String → Bool
  | none, _ => true
  | some _, none => false
  | some a, some b => a ≤ b

def tally (xs : List String) : List (String × Nat) :=
  xs.foldl (fun acc x => Json.setField x ((acc.lookup x).getD 0 + 1) acc) []

def pairVectors (fragments : List Fragment) (vectors : Option (List Embedding)) :
    Outcome (List (Fragment × Option Embedding)) :=
  match vectors with
  | none => .ok (fragments.map (·, none))
  | some vs =>
    if vs.length = fragments.length then .ok ((fragments.zip vs).map fun (f, v) => (f, some v))
    else .error (.plain s!"upsert got {fragments.length} units but {vs.length} vectors")

class Store (S : Type) where
  /-- Inserts or replaces fragments by id. A fragment written without a vector loses the one it
  had. -/
  upsert : S → List Fragment → Option (List Embedding) → Outcome (Nat × S)
  search : S → Embedding → Nat → Filter → Float32 → Outcome (List (Ranked Float))
  keywordSearch : S → List String → Nat → Filter → Outcome (List (Ranked Float))
  /-- The entity of a name; a nested one also goes by its simple name. -/
  entityNamed? : S → String → Outcome (Option Fragment)
  fragmentsOf : S → String → Outcome (List Fragment)
  referencing : S → String → Nat → Outcome (List Fragment)
  listAll : S → Filter → Outcome (List Fragment)
  deletePath : S → String → Outcome (Nat × S)
  deletePathLead : S → String → Outcome (Nat × S)
  count : S → Nat
  stats : S → StoreStats

structure HybridRequest where
  vector : Embedding
  terms : List String
  count : Nat
  filter : Filter
  floor : Float32
  fusion : Fusion Float

/-- How many results each of the two searches may bring: twice the count, in 64 bits. -/
def HybridRequest.depth (req : HybridRequest) : Nat := req.count * 2 % UInt64.size

/-- Fragments near the vector and, if fusion is on, fragments with the terms, fused. -/
def hybridSearch {S : Type} [Store S] (s : S) (req : HybridRequest) :
    Outcome (List (Ranked Float)) :=
  if req.count = 0 then .ok []
  else if req.fusion.useHybrid then do
    let semantic ← Store.search s req.vector req.depth req.filter req.floor
    let keyword ← Store.keywordSearch s req.terms req.depth req.filter
    return req.fusion.fuse semantic keyword req.count
  else do
    let semantic ← Store.search s req.vector req.count req.filter req.floor
    return semantic.take req.count

end CodeRetrieval
