import CodeRetrieval.Text.Basic

/-!
A conversation of several turns. Its history only changes how a question is put to the generator;
what is retrieved depends on the question alone.
-/

set_option autoImplicit false

namespace CodeRetrieval

inductive Role where
  | user
  | assistant
  deriving DecidableEq, Repr

def Role.label : Role → String
  | user => "User"
  | assistant => "Assistant"

structure Turn where
  role : Role
  text : String
  deriving DecidableEq, Repr

structure Session where
  turns : List Turn
  maxTurns : Nat
  deriving DecidableEq, Repr

namespace Session

def new (maxTurns : Nat) : Session := ⟨[], maxTurns⟩

def standard : Session := new 10

/-- Adds a turn at the end; as many of the oldest go as make room for it. -/
def push (s : Session) (turn : Turn) : Session :=
  let room := 2 * s.maxTurns
  if room = 0 then s
  else { s with turns := s.turns.drop (s.turns.length + 1 - room) ++ [turn] }

def record (s : Session) (question answer : String) : Session :=
  (s.push ⟨.user, question⟩).push ⟨.assistant, answer⟩

def clear (s : Session) : Session := { s with turns := [] }

def shownTurns : Nat := 4
def shownChars : Nat := 200

def preview (text : String) : String :=
  if text.length ≤ shownChars then text else Text.take shownChars text ++ "..."

def showTurn (t : Turn) : String := t.role.label ++ ": " ++ preview t.text

def enhance (s : Session) (question : String) : String :=
  if s.turns.isEmpty then question
  else
    "Previous conversation:\n" ++
      Text.join "\n" ((s.turns.drop (s.turns.length - shownTurns)).map showTurn) ++
      "\n\nCurrent question: " ++ question

end Session

end CodeRetrieval
