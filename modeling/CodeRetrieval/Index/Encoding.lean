import CodeRetrieval.Index.Run

set_option autoImplicit false

namespace CodeRetrieval

def StoreStats.toJson (s : StoreStats) : Json :=
  let counts (xs : List (String × Nat)) : Json := .obj (xs.map fun (k, n) => (k, .ofNat n))
  .obj [
    ("total_units", .ofNat s.totalUnits),
    ("by_language", counts s.byLanguage),
    ("by_kind", counts s.byKind),
    ("files", .ofNat s.files),
    ("embedded", .ofNat s.embedded)]

def IndexSummary.toJson (s : IndexSummary) : Json := .obj [
  ("files_scanned", .ofNat s.filesScanned),
  ("files_skipped", .ofNat s.filesSkipped),
  ("structural_files", .ofNat s.structuralFiles),
  ("degraded_files", .ofNat s.degradedFiles),
  ("failed_files", .ofNat s.failedFiles),
  ("units", .ofNat s.units),
  ("embedded", .ofNat s.embedded),
  ("embed_skipped", .ofNat s.embedSkipped),
  ("stored", .ofNat s.stored),
  ("removed", .ofNat s.removed)]

end CodeRetrieval
