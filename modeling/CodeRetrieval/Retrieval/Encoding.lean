import CodeRetrieval.Fragment.Encoding
import CodeRetrieval.Json.Printer
import CodeRetrieval.Retrieval.Answer

set_option autoImplicit false

namespace CodeRetrieval

def Json.ofShortest (x : Float32) : Json :=
  match Decimal.Parts.ofFloat32 x with
  | .finite b =>
    let (d, k) := b.shortest
    let size := Float.ofScientific d (k < 0) k.natAbs
    .ofFloat (if b.negative then -size else size)
  | _ => .null

def Json.ofWidened (x : Float32) : Json := .ofFloat x.toFloat

namespace Analysis

def toJson (single : Float32 → Json) (a : Analysis) : Json := .obj [
  ("intent", .str a.intent.name),
  ("primary_terms", .ofStrings a.primaryTerms),
  ("expanded_terms", .ofStrings a.expandedTerms),
  ("entity_names", .ofStrings a.entityNames),
  ("member_names", .ofStrings a.memberNames),
  ("result_count", .ofNat a.resultCount),
  ("similarity_floor", single a.similarityFloor),
  ("include_dependencies", .bool a.includeDependencies),
  ("kind_filter", .ofText? (a.kind.map (·.name)))]

end Analysis

/-- A score; one that is no number has no JSON form but null. -/
def Json.ofScore (x : Float) : Json := if x.isFinite then .ofFloat x else .null

def Ranked.toJson (r : Ranked Float) : Json :=
  .obj [("unit", r.fragment.toJson), ("score", .ofScore r.score)]

def Retrieval.toJson (single : Float32 → Json) (r : Retrieval) : Json := .obj [
  ("analysis", r.analysis.toJson single),
  ("sources", .arr (r.sources.map Ranked.toJson)),
  ("dependencies", .arr (r.dependencies.map Fragment.toJson)),
  ("listing", .bool r.listing)]

def Answer.toJson (single : Float32 → Json) (a : Answer) : Json := .obj (
  [("answer", .str a.text),
    ("sources", .arr (a.sources.map Ranked.toJson)),
    ("dependencies", .arr (a.dependencies.map Fragment.toJson))] ++
    (a.analysis.map fun x => ("analysis", x.toJson single)).toList ++
    [("listing", .bool a.listing), ("model", .ofText? a.model)])

end CodeRetrieval
