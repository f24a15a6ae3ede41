import CodeRetrieval.Command.Arguments
import CodeRetrieval.Json.Printer
import CodeRetrieval.Retrieval.Trace

set_option autoImplicit false

namespace CodeRetrieval

/-- Digits in groups of three from the right, the rightmost first. -/
def groupDigits : List Char → List Char
  | a :: b :: c :: d :: rest => a :: b :: c :: ',' :: groupDigits (d :: rest)
  | cs => cs

def grouped (n : Nat) : String :=
  String.ofList (groupDigits (toString n).toList.reverse).reverse

namespace IndexEvent

def humanLine : IndexEvent → String
  | scanning root => "index " ++ root ++ "  scanning...\n"
  | parsing n total => "index  parsing  " ++ grouped n ++ " / " ++ grouped total ++ " files\n"
  | chunked units files =>
    "index  chunked  " ++ grouped units ++ " units from " ++ grouped files ++ " files\n"
  | embedding n total => "index  embedding  " ++ grouped n ++ " / " ++ grouped total ++ " units\n"
  | stored units => "index  stored  " ++ grouped units ++ " units\n"

def fields : IndexEvent → List (String × Json)
  | scanning root => [("phase", .str "scanning"), ("root", .str root)]
  | parsing n total => [("phase", .str "parsing"), ("n", .ofNat n), ("total", .ofNat total)]
  | chunked units files =>
    [("phase", .str "chunked"), ("units", .ofNat units), ("files", .ofNat files)]
  | embedding n total => [("phase", .str "embedding"), ("n", .ofNat n), ("total", .ofNat total)]
  | stored units => [("phase", .str "stored"), ("units", .ofNat units)]

def jsonLine (e : IndexEvent) : String :=
  (Json.ofFields (("event", .str "progress") :: e.fields)).compact ++ "\n"

def line : ProgressMode → IndexEvent → String
  | .off, _ => ""
  | .human, e => e.humanLine
  | .json, e => e.jsonLine

end IndexEvent

namespace Status

def label : Status → String
  | analyzing => "analyzing"
  | searching => "searching"
  | embedding => "embedding"
  | generating => "generating"
  | done => "done"

def humanLine : Status → String
  | done => ""
  | s => s.label ++ "...\n"

def line : ProgressMode → Status → String
  | .off, _ => ""
  | .human, s => s.humanLine
  | .json, s =>
    (Json.ofFields [("event", .str "status"), ("status", .str s.label)]).compact ++ "\n"

end Status

end CodeRetrieval
