import CodeRetrieval.Source.Declaration
import CodeRetrieval.Source.Documentation
import CodeRetrieval.Source.Line
import CodeRetrieval.Source.TypeList

/-!
Reading Java line by line, for files that no parser accepts. A line that looks like a declaration is
one; a declaration is nested in the nearest one above it that is indented less. Fields and members
are looked for on the first level of indentation inside, and bodies end where the braces close.
-/

set_option autoImplicit false

namespace CodeRetrieval.Source.Outline

/-- Width of the blanks in front of a line; a tab counts four. -/
def indentation (line : String) : Nat :=
  (line.toList.takeWhile Text.isBlank).foldl (fun n c => n + if c = '\t' then 4 else 1) 0

def isComment (line : String) : Bool :=
  let t := Text.trimStart line
  Text.startsWith t "//" || Text.startsWith t "*" || Text.startsWith t "/*"

def statementWords : List String := [
  "return", "new", "throw", "if", "for", "while", "switch", "catch", "else", "do", "try",
  "synchronized", "assert", "case", "super", "this"]

def above (lines : List String) (i : Nat) : List String := (lines.take i).reverse

def isAnnotationOrBlank (line : String) : Bool :=
  let t := Text.trim line
  t.isEmpty || Text.startsWith t "@"

def annotationsAbove (lines : List String) (i : Nat) : List String :=
  ((((above lines i).takeWhile isAnnotationOrBlank).map Text.trim).filter (!·.isEmpty)).reverse

def opensDoc (line : String) : Bool := Text.startsWith (Text.trimStart line) "/**"

def docAbove? (lines : List String) (i : Nat) : Option String :=
  match (above lines i).dropWhile isAnnotationOrBlank with
  | [] => none
  | last :: more =>
    if Text.endsWith (Text.trim last) "*/" then
      match (last :: more).dropWhile (!opensDoc ·) with
      | [] => none
      | first :: _ =>
        doc? (Text.unlines (first :: ((last :: more).takeWhile (!opensDoc ·)).reverse))
    else none

def annotationWords (s : String) : List String := (Text.fields s).filter (Text.startsWith · "@")

def uptoBrace : List String → List String
  | [] => []
  | l :: rest => if Text.contains l "\x7b" then [l] else l :: uptoBrace rest

def header (lines : List String) (i : Nat) : String :=
  Text.join "" ((uptoBrace ((lines.drop i).take 6)).map fun l => " " ++ Text.trim l)

structure Heading where
  line : Nat
  indent : Nat
  name : String
  kind : String
  modifiers : List String
  annotations : List String
  header : String
  documentation : Option String
  deriving DecidableEq, Repr

def heading? (lines : List String) (i : Nat) (line : String) : Option Heading :=
  if isComment line then none
  else
    (Line.declaration.matchFront line).map fun parts => {
      line := i
      indent := indentation line
      name := parts.get 5
      kind := parts.get 4
      modifiers := Text.fields (parts.get 3)
      annotations := annotationsAbove lines i ++ annotationWords (parts.get 2)
      header := header lines i
      documentation := docAbove? lines i }

def headings (lines : List String) : List Heading :=
  lines.zipIdx.filterMap fun (line, i) => heading? lines i line

def typesAfter (p : Text.Pattern) (header : String) : List String :=
  match p.search header with
  | some parts => splitTypes (parts.get 1)
  | none => []

def Heading.superclass (h : Heading) : Option String :=
  if h.kind == "interface" then none else (typesAfter Line.extending h.header).head?

/-- What an interface extends counts as its interfaces. -/
def Heading.interfaces (h : Heading) : List String :=
  typesAfter (if h.kind == "interface" then Line.extending else Line.implementing) h.header

/-- Whether a line closes a declaration of some indentation. -/
def closes (indent : Nat) (line : String) : Bool :=
  Text.startsWith (Text.trim line) "\x7d" && indentation line ≤ indent

def closesAtOnce (line : String) : Bool :=
  Text.contains line "\x7b" && Text.countChar '\x7b' line == Text.countChar '\x7d' line

/-- Index of the line that closes a declaration, at most `limit`. -/
def closingLine (lines : List String) (start indent limit : Nat) : Nat :=
  if closesAtOnce (lines.getD start "") then start
  else
    let last := min limit (lines.length - 1)
    match ((lines.drop (start + 1)).take (last - start)).findIdx? (closes indent) with
    | some k => start + 1 + k
    | none => max last start

/-- Depth of open braces after a line, and whether any brace has been opened. -/
def braces (line : String) (state : Int × Bool) : Int × Bool :=
  line.toList.foldl (fun (depth, opened) c =>
    if c = '\x7b' then (depth + 1, true)
    else if c = '\x7d' then (depth - 1, opened)
    else (depth, opened)) state

def bodyLength : Int × Bool → List String → Option Nat
  | _, [] => none
  | state, line :: rest =>
    let (depth, opened) := braces line state
    if !opened && Text.endsWith (Text.trimEnd line) ";" then some 0
    else if opened && depth ≤ 0 then some 0
    else (bodyLength (depth, opened) rest).map (· + 1)

/-- Index of the last line of a member: where its braces close or, before any brace, where a line
ends with a semicolon. -/
def bodyEnd (lines : List String) (start limit : Nat) : Nat :=
  match bodyLength (0, false) ((lines.drop start).take (limit + 1 - start)) with
  | some k => start + k
  | none => max limit start

def param? (p : String) : Option Param :=
  (Text.cutLastBy? Text.isBlank (Text.trim (Text.dropLeads "final " p))).map
    fun (typeName, name) => ⟨Text.trim typeName, Text.trim name⟩

def isPlainStatement (line : String) : Bool :=
  Text.endsWith (Text.trimEnd line) ";" && !Text.contains line "("

/-- Only a constructor, which bears the name of its type, has no return type. -/
def memberKind? (owner name : String) (returnType : Option String) : Option MemberKind :=
  match returnType with
  | some _ => some .method
  | none => if name == owner then some .constructor else none

def member? (lines : List String) (i limit : Nat) (owner : String) : Option Member :=
  let line := lines.getD i ""
  if isPlainStatement line then none
  else do
    let parts ← Line.method.matchFront line
    let name := parts.get 4
    let returnType := parts.get? 3
    if statementWords.contains name || returnType.any statementWords.contains then none
    else
      let kind ← memberKind? owner name returnType
      let last := bodyEnd lines i limit
      some {
        name
        kind
        returnType
        parameters := (splitTypes (parts.get 5)).filterMap param?
        modifiers := Text.fields (parts.get 2)
        annotations := annotationsAbove lines i ++ annotationWords (parts.get 1)
        body := Text.unlines ((lines.drop i).take (last + 1 - i))
        documentation := docAbove? lines i
        startLine := i + 1
        endLine := last + 1 }

def field? (line : String) : Option Field :=
  match Line.field.matchFront line with
  | none => none
  | some parts =>
    if statementWords.contains (parts.get 2) then none
    else some ⟨parts.get 3, parts.get 2, Text.fields (parts.get 1)⟩

def innerIndent? (body : List String) : Option Nat :=
  (body.find? fun l =>
    !(Text.trim l).isEmpty && !Text.startsWith (Text.trim l) "\x7d").map indentation

inductive Item where
  | nothing
  | field (f : Field)
  | member (m : Member)

/-- Looks at a line inside a declaration. Lines of nested types and lines on another level of
indentation are nothing. -/
def item (lines : List String) (limit indent : Nat) (owner : String) (nested : List (Nat × Nat))
    (i : Nat) (line : String) : Item :=
  if nested.any fun (s, e) => s ≤ i && i ≤ e then .nothing
  else if indentation line ≠ indent ∨ isComment line ∨ (Text.trim line).isEmpty then .nothing
  else
    match member? lines i limit owner with
    | some m => .member m
    | none =>
      match field? line with
      | some f => .field f
      | none => .nothing

/-- Looks at lines one after the other; those before index `next` belong to the member found last. -/
def scan (look : Nat → String → Item) (next : Nat) : Nat → List String → List Field × List Member
  | _, [] => ([], [])
  | i, line :: rest =>
    if i < next then scan look next (i + 1) rest
    else
      match look i line with
      | .nothing => scan look next (i + 1) rest
      | .field f =>
        let (fields, members) := scan look next (i + 1) rest
        (f :: fields, members)
      | .member m =>
        let (fields, members) := scan look (max m.endLine (i + 1)) (i + 1) rest
        (fields, m :: members)

def contents (lines : List String) (start last : Nat) (owner : String) (nested : List (Nat × Nat)) :
    List Field × List Member :=
  let body := (lines.drop (start + 1)).take (last - start)
  match innerIndent? body with
  | none => ([], [])
  | some indent => scan (item lines last indent owner nested) 0 (start + 1) body

def span (e : Entity) : Nat × Nat := (e.declaration.startLine - 1, e.declaration.endLine - 1)

/-- The types that some headings in order declare; `limit` is the last line they may take, and
`outer` stands before their names. -/
def entities (lines : List String) (limit : Nat) (outer : String) : List Heading → List Entity
  | [] => []
  | h :: rest =>
    let deeper := rest.takeWhile (h.indent < ·.indent)
    let later := rest.dropWhile (h.indent < ·.indent)
    let limitHere := match later with
      | [] => limit
      | next :: _ => max (next.line - 1) h.line
    let last := closingLine lines h.line h.indent limitHere
    let inner := entities lines limitHere (outer ++ h.name ++ ".") deeper
    let (fields, members) := contents lines h.line last h.name (inner.map span)
    ⟨{ name := h.name
       qualifiedName := outer ++ h.name
       kind := h.kind
       modifiers := h.modifiers
       annotations := h.annotations
       superclass := h.superclass
       interfaces := h.interfaces
       fields
       members
       documentation := h.documentation
       startLine := h.line + 1
       endLine := last + 1 }, inner⟩ :: entities lines limit outer later
termination_by hs => hs.length
decreasing_by
  · exact Nat.lt_succ_of_le (List.takeWhile_sublist _).length_le
  · exact Nat.lt_succ_of_le (List.dropWhile_sublist _).length_le

/-- Reads a file by the shapes of its lines. -/
def read : Reader := fun path text =>
  let lines := Text.lines text
  match headings lines with
  | [] => .failed "no type declaration found"
  | hs =>
    .degraded {
      path
      language := "java"
      package := lines.findSome? fun l => (Line.package.matchFront l).map (·.get 1)
      imports := lines.filterMap fun l => (Line.imported.matchFront l).map (·.get 1)
      entities := entities lines (lines.length - 1) "" hs } "regex extraction"

end CodeRetrieval.Source.Outline
