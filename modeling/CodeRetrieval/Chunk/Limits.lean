import CodeRetrieval.Text.Lines

set_option autoImplicit false

namespace CodeRetrieval

structure ChunkLimits where
  minChunkLines : Nat
  maxChunkLines : Nat
  maxFileLines : Nat
  minMemberChars : Nat
  includeMembers : Bool
  includeDocumentation : Bool
  deriving DecidableEq, Repr

def ChunkLimits.standard : ChunkLimits := ⟨3, 200, 500, 50, true, true⟩

namespace Chunk

def codeMarker : String := "// ... truncated"

def docMarker : String := "... (truncated)"

/-- At most `most` lines of a text; if it is cut, the last of them is the marker. -/
def truncate (content : String) (most : Nat) (marker : String) : String :=
  let ls := Text.lines content
  if ls.length ≤ most then content
  else
    let kept := Text.unlines (ls.take (most - 1))
    if kept.isEmpty then marker else kept ++ "\n" ++ marker

def isTruncated (content : String) : Bool :=
  let last := (Text.lines content).getLast?.getD ""
  last == codeMarker || last == docMarker

/-- A text within the limits, or none if it is too short. -/
def bound (limits : ChunkLimits) (content marker : String) : Option String :=
  if Text.lineCount content < limits.minChunkLines then none
  else some (truncate content limits.maxChunkLines marker)

end Chunk

end CodeRetrieval
