import CodeRetrieval.Text.Lines

set_option autoImplicit false

namespace CodeRetrieval.Source

def cleanDocLine (line : String) : String :=
  let t := Text.trim line
  let t := (Text.afterLead? t "/**").getD t
  let t := (Text.beforeTail? t "*/").getD t
  Text.trim (String.ofList (t.toList.dropWhile (· == '*')))

/-- The text of a documentation comment: its lines that are not empty. -/
def cleanDoc (comment : String) : String :=
  Text.unlines (((Text.lines comment).map cleanDocLine).filter (!·.isEmpty))

def doc? (comment : String) : Option String :=
  let text := cleanDoc comment
  if text.isEmpty then none else some text

end CodeRetrieval.Source
