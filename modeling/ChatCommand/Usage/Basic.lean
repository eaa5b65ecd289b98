import ChatCommand.Text.Basic

/-! # Usages

A usage says which arguments a command takes, as a sequence of tokens read from a pattern such as
`<member> [reason...]`.
-/

namespace ChatCommand

namespace Usage

/-- A literal is one of several words, a flag is named after its hyphen, a spread parameter takes
the rest of the line, and an ellipsis drops it. -/
inductive Token where
  | literal (options : List Text)
  | flag (name : Text)
  | param (name : Text) (optional spread : Bool)
  | ellipsis
  deriving DecidableEq, Repr

/-- The name under which the token promises an argument. -/
def Token.key? : Token → Option Text
  | literal _ => none
  | flag name => some name
  | param name _ _ => some name
  | ellipsis => none

def Token.print : Token → Text
  | literal options => ['|'].intercalate options
  | flag name => '-' :: name
  | param name optional spread =>
    (if optional then '[' else '<') :: name ++ (if spread then ['.', '.', '.'] else []) ++
      [if optional then ']' else '>']
  | ellipsis => ['.', '.', '.']

/-- The pattern of a token list, with one space between neighbours. -/
def print (tokens : List Token) : Text := [' '].intercalate (tokens.map Token.print)

end Usage

structure Usage where
  pattern : Text
  tokens : List Usage.Token
  deriving DecidableEq, Repr

/-- The names of all flags and parameters, in order. -/
def Usage.keys (usage : Usage) : List Text := usage.tokens.filterMap Usage.Token.key?

end ChatCommand
