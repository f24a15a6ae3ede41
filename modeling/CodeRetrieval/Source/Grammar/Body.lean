import CodeRetrieval.Source.Documentation
import CodeRetrieval.Source.Grammar.Phrase

/-!
Declarations of types, with all that stands in their bodies. Documentation is the block comment that
directly precedes a declaration, with nothing but empty statements between them.
-/

set_option autoImplicit false

namespace CodeRetrieval.Source.Parse

structure Opening where
  first : Token
  modifiers : Modifiers
  proper : Token
  documentation : Option String

def opening (source : List Char) (documentation : Option String) : Parse Opening := do
  match ← peek with
  | none => fail
  | some first => do
    let m ← modifiers source
    let behind := (← peekAny).getD first
    let proper :=
      m.words.headD (if m.annotations.isEmpty then first else behind)
    return ⟨first, m, proper, documentation⟩

def docOf (comment : Option Token) : Option String :=
  comment.bind fun t =>
    if t.kind == .blockComment && Text.startsWith t.text "/**" then doc? t.text else none

/-- Something in the body of a type. -/
inductive Item where
  | fields (fs : List Field)
  | member (m : Member)
  | nested (e : Entity)
  | other

namespace Item

def fields? : Item → List Field
  | fields fs => fs
  | _ => []

def member? : Item → Option Member
  | member m => some m
  | _ => none

def nested? : Item → Option Entity
  | nested e => some e
  | _ => none

end Item

/-- Reads items up to the closing brace, at most `n` tokens or items. `comment` is the last comment
since the last item. An item that cannot be read is a fault and is skipped. -/
def itemsWithin (item : Option String → Parse Item) : Nat → Option Token → Parse (List Item)
  | 0, _ => pure []
  | n + 1, comment => do
    match ← opt Parse.comment with
    | some t => itemsWithin item n (some t)
    | none =>
      match ← peek with
      | none => do
        fault
        return []
      | some t =>
        if t.is "\x7d" then do
          advance
          return []
        else if t.is ";" then do
          advance
          itemsWithin item n comment
        else
          match ← opt (item (docOf comment)) with
          | some i => return i :: (← itemsWithin item n none)
          | none => do
            fault
            advance
            _ ← statement
            itemsWithin item n none

def items (item : Option String → Parse Item) : Parse (List Item) := fun c =>
  itemsWithin item (c.ahead.length + 1) none c

def constantsWithin : Nat → Parse Unit
  | 0 => pure ()
  | n + 1 => do
    match ← peek with
    | none => pure ()
    | some t =>
      if t.is ";" then advance
      else if t.closes then pure ()
      else if t.opens then do group; constantsWithin n
      else do advance; constantsWithin n

def declaredKind? : Parse (Option String) := fun c =>
  let kind : Option String :=
    match c.ahead.filter (!·.isComment) with
    | t :: name :: behind :: _ =>
      if ["class", "interface", "enum", "@interface"].any t.is then some t.text
      else if t.is "record" && name.isWord && (behind.is "(" || behind.is "<") then some t.text
      else none
    | _ => none
  some (kind, c)

structure Heritage where
  superclass : Option String
  interfaces : List String

/-- What an interface extends counts as its interfaces. -/
def heritageClause (source : List Char) (kind : String) (h : Heritage) : Parse Heritage := do
  if ← next "extends" then
    expect "extends"
    if kind == "interface" then return { h with interfaces := ← typeList source }
    else return { h with superclass := some (← typeOrComment source annotatedType) }
  else if ← next "implements" then
    expect "implements"
    return { h with interfaces := ← typeList source }
  else
    expect "permits"
    _ ← typeList source
    return h

def heritage (source : List Char) (kind : String) : Nat → Heritage → Parse Heritage
  | 0, h => pure h
  | n + 1, h => do
    match ← opt (heritageClause source kind h) with
    | some h => heritage source kind n h
    | none => return h

def memberOf (source : List Char) (o : Opening) (name : String) (kind : MemberKind)
    (returnType : Option String) (parameters : Parse (List Param)) : Parse Member := do
  let ps ← parameters
  statement
  let stop := (← get).last.stop
  let start := o.proper.start
  return {
    name
    kind
    returnType
    parameters := ps
    modifiers := o.modifiers.texts
    annotations := o.modifiers.annotations
    body := between source (start.offset - start.column) stop.offset
    documentation := o.documentation
    startLine := start.line + 1
    endLine := stop.line + 1 }

/-- A method, a constructor or fields. A constructor that repeats no parameters has none. -/
def memberOrFields (source : List Char) (o : Opening) : Parse Item := do
  if ← next "<" then
    typeArguments
    _ ← many annotation
  let constructor? ← opt (do
    let t ← word
    if ← next "(" then return (t, params source)
    else if ← next "\x7b" then return (t, pure [])
    else fail)
  match constructor? with
  | some (t, parameters) =>
    return .member (← memberOf source o t.text .constructor none parameters)
  | none => do
    let typeName ← textOf source type
    let method? ← opt (do
      let t ← word
      if ← next "(" then return t else fail)
    match method? with
    | some t =>
      return .member (← memberOf source o t.text .method (some typeName) (params source))
    | none => do
      let names ← declarators
      return .fields (names.map fun name => ⟨name, typeName, o.modifiers.texts⟩)

def item (source : List Char) (kind : String) (nested : Opening → String → Parse Entity)
    (documentation : Option String) : Parse Item := do
  let o ← opening source documentation
  match ← declaredKind? with
  | some innerKind => return .nested (← nested o innerKind)
  | none =>
    if ← next "\x7b" then
      group
      return .other
    else
      match ← memberOrFields source o with
      | .member m => return if kind == "@interface" then .other else .member m
      | i => return i

/-- A declared type from its keyword on; types are nested at most `depth` deep. `outer` stands
before the names. -/
def entity (source : List Char) : Nat → String → Opening → String → Parse Entity
  | 0, _, _, _ => fail
  | depth + 1, outer, o, kind => do
    expect kind
    let t ← word
    _ ← opt typeArguments
    let components ← if kind == "record" then params source else pure []
    let h ← heritage source kind 3 ⟨none, []⟩
    expect "\x7b"
    if kind == "enum" then
      fun c => constantsWithin c.ahead.length c
    let qualifiedName := outer ++ t.text
    let inside ← items (item source kind (entity source depth (qualifiedName ++ ".")))
    return {
      declaration := {
        name := t.text
        qualifiedName
        kind
        modifiers := o.modifiers.texts
        annotations := o.modifiers.annotations
        superclass := h.superclass
        interfaces := h.interfaces
        fields := components.map (fun p => ⟨p.name, p.typeName, []⟩) ++ inside.flatMap Item.fields?
        members := inside.filterMap Item.member?
        documentation := o.documentation
        startLine := o.first.firstLine
        endLine := (← get).last.lastLine }
      inner := inside.filterMap Item.nested? }

end CodeRetrieval.Source.Parse
