import CodeRetrieval.Text.Property

/-!
Patterns of text with named parts. Of several ways to match, the first one counts: an alternative
before the ones after it, more repetitions before fewer unless the pattern asks for as few as
possible.
-/

set_option autoImplicit false

namespace CodeRetrieval.Text

inductive Pattern where
  | empty
  | one (p : Char → Bool)
  | seq (a b : Pattern)
  | alt (a b : Pattern)
  | many (greedy : Bool) (p : Pattern)
  | part (n : Nat) (p : Pattern)
  | wordEdge
  | stop

namespace Pattern

/-- A place in a text: the character before it, the text after it, and the parts matched so far. -/
structure Place where
  before : Option Char
  rest : List Char
  parts : List (Nat × List Char)

/-- What is left to match after some pattern. -/
abbrev Next := Place → Option Place

/-- Repetitions of a step that consumes text, at most `fuel` of them. -/
def repeatStep (greedy : Bool) (step : Next → Next) (next : Next) : Nat → Next
  | 0, place => next place
  | fuel + 1, place =>
    let again : Unit → Option Place := fun _ =>
      step (fun p =>
        if p.rest.length < place.rest.length then repeatStep greedy step next fuel p else none) place
    if greedy then (again ()).orElse fun _ => next place
    else (next place).orElse again

def isWordEdge (place : Place) : Bool :=
  (place.before.any isWord) != (place.rest.head?.any isWord)

def run : Pattern → Next → Next
  | .empty, next => next
  | .one p, next => fun place =>
    match place.rest with
    | [] => none
    | c :: rest => if p c then next { place with before := some c, rest } else none
  | .seq a b, next => a.run (b.run next)
  | .alt a b, next => fun place => (a.run next place).orElse fun _ => b.run next place
  | .many greedy p, next => fun place =>
    repeatStep greedy (fun k => p.run k) next place.rest.length place
  | .part n p, next => fun place =>
    p.run (fun after =>
      let text := place.rest.take (place.rest.length - after.rest.length)
      next { after with parts := (n, text) :: after.parts }) place
  | .wordEdge, next => fun place => if isWordEdge place then next place else none
  | .stop, next => fun place => if place.rest.isEmpty then next place else none

abbrev Parts := List (Nat × List Char)

/-- The parts of a match that starts at the front of the text. -/
def matchFront (p : Pattern) (text : String) : Option Parts :=
  (p.run some ⟨none, text.toList, []⟩).map (·.parts)

def searchFrom (p : Pattern) : Option Char → List Char → Option Parts
  | before, [] => (p.run some ⟨before, [], []⟩).map (·.parts)
  | before, c :: rest =>
    match p.run some ⟨before, c :: rest, []⟩ with
    | some place => some place.parts
    | none => searchFrom p (some c) rest

def search (p : Pattern) (text : String) : Option Parts := searchFrom p none text.toList

def Parts.get? (ps : Parts) (n : Nat) : Option String :=
  (List.lookup n ps).map String.ofList

def Parts.get (ps : Parts) (n : Nat) : String := (Parts.get? ps n).getD ""

def char (c : Char) : Pattern := .one (· == c)

def all : List Pattern → Pattern
  | [] => .empty
  | [p] => p
  | p :: rest => .seq p (all rest)

def any : List Pattern → Pattern
  | [] => .one fun _ => false
  | [p] => p
  | p :: rest => .alt p (any rest)

def text (s : String) : Pattern := all (s.toList.map char)

def anyText (xs : List String) : Pattern := any (xs.map text)

def star (p : Pattern) : Pattern := .many true p

def plus (p : Pattern) : Pattern := .seq p (star p)

def plusLazy (p : Pattern) : Pattern := .seq p (.many false p)

def opt (p : Pattern) : Pattern := .alt p .empty

def blank : Pattern := .one isBlank

def word : Pattern := .one isWord

def except (cs : List Char) : Pattern := .one fun c => !cs.contains c

end Pattern

end CodeRetrieval.Text
