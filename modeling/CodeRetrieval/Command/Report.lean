import CodeRetrieval.Calendar
import CodeRetrieval.Decimal.Fixed
import CodeRetrieval.Index.Run
import CodeRetrieval.Retrieval.Encoding
import CodeRetrieval.Store.Table

set_option autoImplicit false

namespace CodeRetrieval.Report

def lines (ls : List String) : String := Text.join "" (ls.map (· ++ "\n"))

def location (f : Fragment) : String := s!"{f.filePath}:{f.startLine}-{f.endLine}"

def sourceLines (i : Nat) (r : Ranked Float) : List String := [
  s!"{i + 1}. [{Decimal.fixed 3 r.score}] {r.fragment.displayName} ({r.fragment.kind.name})",
  "    " ++ location r.fragment]

def sources (ranked : List (Ranked Float)) (related : List Fragment) : List String :=
  (if ranked.isEmpty then []
   else s!"--- Sources ({ranked.length}) ---" ::
    ranked.zipIdx.flatMap fun (r, i) => sourceLines i r) ++
  (if related.isEmpty then []
   else s!"--- Related ({related.length}) ---" ::
    related.map fun f => "  " ++ f.displayName ++ "  " ++ location f) ++
  (if ranked.isEmpty && related.isEmpty then [] else [""])

def answer (a : Answer) : String :=
  lines ([Text.trimEnd a.text, ""] ++ sources a.sources a.dependencies ++
    (a.model.map ("model: " ++ ·)).toList)

def retrieval (r : Retrieval) : String :=
  lines (("intent: " ++ r.analysis.intent.name ++
      (if r.listing then " (complete listing)" else "")) ::
    (if r.sources.isEmpty then ["No results."] else "" :: sources r.sources r.dependencies))

def json (v : Json) : String := v.pretty ++ "\n"

def indexSummary (root : String) (dryRun embedding : Bool) (s : IndexSummary) : String :=
  lines ([
    "index " ++ root ++ (if dryRun then " (dry-run)" else ""),
    s!"  files scanned: {s.filesScanned}",
    s!"  files skipped: {s.filesSkipped}",
    s!"  java files: {s.structuralFiles} ({s.degradedFiles} degraded, {s.failedFiles} failed)",
    s!"  units: {s.units}"] ++
    (if dryRun then []
     else
      (if embedding then
        [s!"  embedded: {s.embedded}", s!"  embedding skipped: {s.embedSkipped}"]
       else []) ++
      [s!"  removed: {s.removed}", s!"  stored: {s.stored}"]) ++
    ["ok"])

/-- A count of bytes in the largest unit that makes at least one. -/
def byteSize (n : Nat) : String :=
  let inUnits (unit : Nat) : Float := Float.ofNat n / Float.ofNat unit
  if n < 1024 then s!"{n} B"
  else if n < 1024 * 1024 then Decimal.fixed 1 (inUnits 1024) ++ " KB"
  else if n < 1024 * 1024 * 1024 then Decimal.fixed 1 (inUnits (1024 * 1024)) ++ " MB"
  else Decimal.fixed 2 (inUnits (1024 * 1024 * 1024)) ++ " GB"

def blanks (n : Nat) : String := String.ofList (List.replicate n ' ')

def row (name number : String) : String :=
  "  " ++ name ++ blanks (24 - name.length) ++ " " ++ blanks (8 - number.length) ++ number

def breakdown (title header : String) (counts : List (String × Nat)) : List String :=
  if counts.isEmpty then []
  else
    ["", "  " ++ title, row header "UNITS", "  " ++ String.ofList (List.replicate 33 '-')] ++
      counts.map fun (name, n) => row name (toString n)

def coverage (s : StoreStats) : Nat := s.embedded * 100 / s.totalUnits

def stats (path : String) (size : Nat) (now : Int) (lastIndexed : Option Int) (s : StoreStats) :
    String :=
  lines ([
    "Code Harness: Index Stats",
    "=========================",
    "",
    "  Database:    " ++ path,
    "  Size:        " ++ byteSize size,
    "  Indexed:     " ++ (lastIndexed.map (Time.relative now)).getD "never",
    "",
    s!"  Files:       {s.files}",
    s!"  Units:       {s.totalUnits}",
    s!"  Embedded:    {s.embedded} / {s.totalUnits} ({coverage s}%)"] ++
    breakdown "By kind:" "KIND" s.byKind ++ breakdown "By language:" "LANGUAGE" s.byLanguage ++
    [""])

end CodeRetrieval.Report
