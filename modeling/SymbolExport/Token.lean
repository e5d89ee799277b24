/-! Tokens of source files. -/
namespace SymbolExport

inductive TokenKind
  | name
  | number
  | string
  | operator
  | comment
  | newline
  | lineBreak
  | indent
  | dedent
  | error
  | endMarker
  deriving DecidableEq, Repr

structure Token where
  kind : TokenKind
  text : List Char
  deriving DecidableEq, Repr

/-- Why a source has no tokens. Lines count from 1 and columns from 0. -/
inductive TokenFault
  | openStatement (line : Nat)
  | openString (line column : Nat)
  | badDedent (line : Nat)
  deriving DecidableEq, Repr

def TokenFault.message : TokenFault → String
  | openStatement line => "('EOF in multi-line statement', (" ++ toString line ++ ", 0))"
  | openString line column =>
    "('EOF in multi-line string', (" ++ toString line ++ ", " ++ toString column ++ "))"
  | badDedent line =>
    "unindent does not match any outer indentation level (<tokenize>, line " ++
      toString line ++ ")"

end SymbolExport
