import CodeRetrieval.Command.Progress
import CodeRetrieval.Command.Report
import CodeRetrieval.Session

set_option autoImplicit false

namespace CodeRetrieval

inductive ChatLine where
  | blank
  | leave
  | clear
  | question (text : String)
  deriving DecidableEq, Repr

def ChatLine.of (line : String) : ChatLine :=
  match Text.trim line with
  | "" => blank
  | "exit" => leave
  | "quit" => leave
  | "clear" => clear
  | text => question text

structure Chat where
  session : Session
  trace : Trace
  stdout : String
  stderr : String

namespace Chat

def greeting : String := "Ask about the indexed code. Type 'clear' to reset, 'exit' to quit.\n"

def new (maxTurns : Nat) : Chat := ⟨.new maxTurns, .empty, greeting, ""⟩

def say (c : Chat) (text : String) : Chat := { c with stdout := c.stdout ++ text }

variable {S : Type} [Store S]

/-- Asks a question: retrieval sees it alone, the generator after the conversation so far. -/
def ask (r : Retriever S) (o : QueryOptions) (session : Session) (question : String) : Run Answer :=
  r.query question { o with generationQuestion := some (session.enhance question) }

def answer (r : Retriever S) (o : QueryOptions) (mode : ProgressMode) (c : Chat)
    (question : String) : Chat :=
  let (result, trace) := (ask r o c.session question).result { c.trace with statuses := [] }
  let stderr := c.stderr ++ Text.join "" (trace.statuses.map (Status.line mode))
  match result with
  | .ok a =>
    { session := c.session.record question a.text
      trace
      stdout := c.stdout ++ Report.answer a
      stderr }
  | .error f => { c with trace, stderr := stderr ++ "Error: " ++ f.fullText ++ "\n" }

def run (r : Retriever S) (o : QueryOptions) (mode : ProgressMode) : Chat → List String → Chat
  | c, [] => c.say "> "
  | c, line :: rest =>
    let c := c.say "> "
    match ChatLine.of line with
    | .blank => run r o mode c rest
    | .leave => c
    | .clear =>
      run r o mode ({ c with session := c.session.clear }.say "(history cleared)\n") rest
    | .question text => run r o mode (c.answer r o mode text) rest

end Chat

end CodeRetrieval
