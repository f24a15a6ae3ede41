import CodeRetrieval.Text.Basic

/-!
The tokens of Java source. Comments are tokens as well, because a declaration's documentation is the
comment in front of it; blanks are not. Each token knows where it stands.
-/

set_option autoImplicit false

namespace CodeRetrieval.Source

/-- A position in a text: characters before it, lines before it, and characters before it on its
line. -/
structure Mark where
  offset : Nat
  line : Nat
  column : Nat
  deriving DecidableEq, Repr

namespace Mark

def start : Mark := ⟨0, 0, 0⟩

def next (m : Mark) (c : Char) : Mark :=
  if c = '\n' then ⟨m.offset + 1, m.line + 1, 0⟩ else ⟨m.offset + 1, m.line, m.column + 1⟩

def after (m : Mark) (text : List Char) : Mark := text.foldl next m

end Mark

inductive TokenKind where
  | word
  | number
  | quoted
  | symbol
  | lineComment
  | blockComment
  deriving DecidableEq, Repr

structure Token where
  kind : TokenKind
  text : String
  start : Mark
  stop : Mark
  deriving DecidableEq, Repr

namespace Token

def isComment (t : Token) : Bool := t.kind == .lineComment || t.kind == .blockComment

def isWord (t : Token) : Bool := t.kind == .word

def is (t : Token) (text : String) : Bool :=
  (t.kind == .word || t.kind == .symbol) && t.text == text

def opens (t : Token) : Bool := t.is "(" || t.is "[" || t.is "\x7b"

def closes (t : Token) : Bool := t.is ")" || t.is "]" || t.is "\x7d"

def firstLine (t : Token) : Nat := t.start.line + 1

def lastLine (t : Token) : Nat := t.stop.line + 1

end Token

namespace Lexeme

def isNameStart (c : Char) : Bool := c == '$' || (Text.isWord c && !c.isDigit)

def isNamePart (c : Char) : Bool := c == '$' || Text.isWord c

def blockComment : List Char → List Char
  | '*' :: '/' :: _ => ['*', '/']
  | c :: rest => c :: blockComment rest
  | [] => []

def quoted (quote : Char) : List Char → List Char
  | '\\' :: c :: rest => '\\' :: c :: quoted quote rest
  | c :: rest =>
    if c = quote then [c] else if c = '\n' then [] else c :: quoted quote rest
  | [] => []

def textBlock : List Char → List Char
  | '\\' :: c :: rest => '\\' :: c :: textBlock rest
  | '"' :: '"' :: '"' :: _ => ['"', '"', '"']
  | c :: rest => c :: textBlock rest
  | [] => []

def endsHere (s : List Char) : Bool := !s.head?.any isNamePart

def word (s : List Char) : List Char :=
  let name := s.takeWhile isNamePart
  match Text.Chars.afterLead "non-sealed".toList s with
  | some rest => if endsHere rest then "non-sealed".toList else name
  | none => name

def front : List Char → TokenKind × List Char
  | '/' :: '/' :: rest => (.lineComment, '/' :: '/' :: rest.takeWhile (· != '\n'))
  | '/' :: '*' :: rest => (.blockComment, '/' :: '*' :: blockComment rest)
  | '"' :: '"' :: '"' :: rest => (.quoted, '"' :: '"' :: '"' :: textBlock rest)
  | '"' :: rest => (.quoted, '"' :: quoted '"' rest)
  | '\'' :: rest => (.quoted, '\'' :: quoted '\'' rest)
  | '-' :: '>' :: _ => (.symbol, ['-', '>'])
  | ':' :: ':' :: _ => (.symbol, [':', ':'])
  | '.' :: '.' :: '.' :: _ => (.symbol, ['.', '.', '.'])
  | s =>
    match Text.Chars.afterLead "@interface".toList s with
    | some rest => (.symbol, if endsHere rest then "@interface".toList else ['@'])
    | none =>
      if s.head?.any isNameStart then (.word, word s)
      else if s.head?.any Char.isDigit then (.number, s.takeWhile fun c => isNamePart c || c == '.')
      else (.symbol, s.take 1)

def tokensFrom : Nat → Mark → List Char → List Token
  | 0, _, _ => []
  | n + 1, m, s =>
    let rest := s.dropWhile Text.isBlank
    if rest.isEmpty then []
    else
      let start := m.after (s.takeWhile Text.isBlank)
      let (kind, text) := front rest
      let stop := start.after text
      ⟨kind, String.ofList text, start, stop⟩ :: tokensFrom n stop (rest.drop text.length)

end Lexeme

/-- The tokens of a text; each takes at least one of its characters. A byte order mark in front is
passed over. -/
def tokens (text : List Char) : List Token :=
  match text with
  | '\ufeff' :: rest => Lexeme.tokensFrom rest.length (Mark.start.next '\ufeff') rest
  | _ => Lexeme.tokensFrom text.length .start text

end CodeRetrieval.Source
