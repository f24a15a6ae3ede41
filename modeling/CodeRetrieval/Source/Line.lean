import CodeRetrieval.Text.Pattern

set_option autoImplicit false

namespace CodeRetrieval.Source.Line

open Text Text.Pattern

def blanks : Pattern := star blank

def blanks1 : Pattern := plus blank

def dotted : Pattern := .one fun c => isWord c || c == '.'

def typeChar : Pattern := .one fun c => isWord c || c == '.' || c == '$'

def identifier : Pattern :=
  .seq (.one fun c => (c.isUpper || c.isLower) || c == '_') (star word)

def parenthesized : Pattern := all [char '(', star (except [')']), char ')']

def annotations : Pattern := star (all [char '@', plus word, opt parenthesized, blanks1])

def modifiers (names : List String) : Pattern := star (.seq (anyText names) blanks1)

def arrayMarks : Pattern := star (.seq (char '[') (char ']'))

def package : Pattern :=
  all [blanks, text "package", blanks1, .part 1 (plus dotted), blanks, char ';']

def imported : Pattern :=
  all [blanks, text "import", blanks1, opt (.seq (text "static") blanks1),
    .part 1 (.seq (plus dotted) (opt (text ".*"))), blanks, char ';']

/-- A type declaration. Part 2 holds annotations, part 3 modifiers, part 4 the kind and part 5 the
name. -/
def declaration : Pattern :=
  all [blanks, .part 2 annotations,
    .part 3 (modifiers ["public", "protected", "private", "abstract", "final", "static", "sealed",
      "non-sealed", "strictfp"]),
    .part 4 (anyText ["class", "interface", "enum", "record", "@interface"]), blanks1,
    .part 5 identifier]

def extending : Pattern :=
  all [.wordEdge, text "extends", blanks1, .part 1 (plusLazy (except ['\n'])),
    any [all [.wordEdge, text "implements", .wordEdge], char '\x7b', .stop]]

def implementing : Pattern :=
  all [.wordEdge, text "implements", blanks1, .part 1 (plusLazy (except ['\n'])),
    any [char '\x7b', .stop]]

/-- The front of a method or constructor. Part 1 holds annotations, part 2 modifiers, part 3 the
return type if there is one, part 4 the name and part 5 the parameters. -/
def method : Pattern :=
  all [blanks, .part 1 annotations,
    .part 2 (modifiers ["public", "protected", "private", "static", "final", "abstract",
      "synchronized", "native", "default"]),
    opt (all [char '<', plus (except ['>']), char '>', blanks1]),
    opt (.seq (.part 3 (all [plus typeChar,
      opt (all [char '<', star (except ['\n']), char '>']), arrayMarks])) blanks1),
    .part 4 identifier, blanks, char '(', .part 5 (star (except [')'])), char ')']

def field : Pattern :=
  all [blanks,
    .part 1 (modifiers ["public", "protected", "private", "static", "final", "transient",
      "volatile"]),
    .part 2 (all [plus typeChar,
      opt (all [char '<', star (except [';', '=', '(', ')']), char '>']), arrayMarks]),
    blanks1, .part 3 identifier, blanks, opt (.seq (char '=') (star (except [';']))), char ';',
    blanks, .stop]

end CodeRetrieval.Source.Line
