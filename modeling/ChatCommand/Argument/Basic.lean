import ChatCommand.Entity.Id
import ChatCommand.Matching.Failure
import ChatCommand.Text.Lowercase
import ChatCommand.Text.Quoted

/-! # Arguments

Text bound to a name by the usage that accepted it, and what this text says on its own.
-/

namespace ChatCommand

structure Argument where
  usage : Text
  name : Text
  text : Text
  deriving DecidableEq, Repr

namespace Argument

open Text

def fail (arg : Argument) (kind : FailureKind) (subkind : FailureSubkind)
    (item : Option Text) : Failure :=
  ⟨arg.usage, arg.name, arg.text, kind, subkind, item⟩

def isPresent (arg : Argument) : Bool := !arg.text.isEmpty

def isEmpty (arg : Argument) : Bool := arg.text.isEmpty

def string (arg : Argument) : Text := unquote arg.text

def id? (arg : Argument) : Option Text := if Id.appearsIn arg.text then some arg.text else none

/-- Reads yes and no, or true and false, in any letter case. -/
def boolean? (arg : Argument) : Option Bool :=
  let word := lowercase arg.text
  if word = "true".toList ∨ word = "yes".toList then some true
  else if word = "false".toList ∨ word = "no".toList then some false
  else none

/-- Reads a decimal number between blanks as the nearest double, which must be finite and in the
range. -/
def number? (range : Binary64.Range) (arg : Argument) : Option Binary64 :=
  ((Decimal.ofText? (trim arg.text)).bind Decimal.round?).filter range.contains

/-- Reads a number like `number?`. Integers may be written with a point or an exponent, and the
value need not be integral. -/
def integer? (range : Binary64.Range) (arg : Argument) : Option Binary64 := number? range arg

end Argument

end ChatCommand
