import CodeRetrieval.Source.Token

/-!
Reading a list of tokens from front to back. A step may fail, and then nothing has been read; what
is missing in a text that can still be understood is counted as a fault.
-/

set_option autoImplicit false

namespace CodeRetrieval.Source

structure Cursor where
  ahead : List Token
  last : Token
  faults : Nat
  deriving Repr

abbrev Parse := StateT Cursor Option

namespace Parse

def fail {α : Type} : Parse α := fun _ => none

def peekAny : Parse (Option Token) := fun c => some (c.ahead.head?, c)

def peek : Parse (Option Token) := fun c => some (c.ahead.find? (!·.isComment), c)

def next (text : String) : Parse Bool := fun c =>
  some ((c.ahead.find? (!·.isComment)).any (·.is text), c)

def take (p : Token → Bool) : Parse Token := fun c =>
  match c.ahead.dropWhile Token.isComment with
  | [] => none
  | t :: rest => if p t then some (t, { c with ahead := rest, last := t }) else none

def advance : Parse Unit := discard (take fun _ => true)

def expect (text : String) : Parse Unit := discard (take (·.is text))

def word : Parse Token := take Token.isWord

def comment : Parse Token := fun c =>
  match c.ahead with
  | [] => none
  | t :: rest => if t.isComment then some (t, { c with ahead := rest }) else none

def fault : Parse Unit := fun c => some ((), { c with faults := c.faults + 1 })

def opt {α : Type} (p : Parse α) : Parse (Option α) := fun c =>
  match p c with
  | some (a, d) => some (some a, d)
  | none => some (none, c)

def upTo {α : Type} (p : Parse α) : Nat → Parse (List α)
  | 0 => pure []
  | n + 1 => do
    match ← opt p with
    | some a => return a :: (← upTo p n)
    | none => return []

def many {α : Type} (p : Parse α) : Parse (List α) := fun c => upTo p c.ahead.length c

/-- Reads a given word or symbol, or counts a fault where it is missing. -/
def require (text : String) : Parse Unit := do
  if ← next text then expect text else fault

/-- What follows the bracket that closes the innermost of `depth + 1` open ones, after that bracket
itself. -/
def afterClosing : Nat → List Token → Option (Token × List Token)
  | _, [] => none
  | depth, t :: rest =>
    if t.opens then afterClosing (depth + 1) rest
    else if t.closes then
      match depth with
      | 0 => some (t, rest)
      | d + 1 => afterClosing d rest
    else afterClosing depth rest

def group : Parse Unit := do
  let opening ← take Token.opens
  fun c => match afterClosing 0 c.ahead with
    | some (t, rest) => some ((), { c with ahead := rest, last := t })
    | none =>
      some ((), ⟨[], (c.ahead.filter (!·.isComment)).getLastD opening, c.faults + 1⟩)

/-- Reads up to a semicolon or a block, at most `n` tokens or groups; a bracket that closes what is
around, or the end of the text, comes too early. -/
def statementWithin : Nat → Parse Unit
  | 0 => pure ()
  | n + 1 => do
    match ← peek with
    | none => fault
    | some t =>
      if t.is ";" then advance
      else if t.is "\x7b" then group
      else if t.closes then fault
      else if t.opens then do group; statementWithin n
      else do advance; statementWithin n

def statement : Parse Unit := fun c => statementWithin (c.ahead.length + 1) c

def between (source : List Char) (start stop : Nat) : String :=
  String.ofList ((source.drop start).take (stop - start))

def textOf (source : List Char) (p : Parse Unit) : Parse String := do
  match ← peek with
  | none => fail
  | some t => do
    p
    return between source t.start.offset (← get).last.stop.offset

end Parse

end CodeRetrieval.Source
