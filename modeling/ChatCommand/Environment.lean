import ChatCommand.Text.Basic

/-! # Environment files

A file sets variables line by line, each by a name and a value with an equals sign between them.
A hash sign starts a comment, in the name as in the value. Lines that have no name or no value left
are skipped.
-/

namespace ChatCommand.Environment

open Text

inductive Fault where
  | splitCharacter
  | zeroCharacter
  deriving DecidableEq, Repr

def Fault.message : Fault → Text
  | splitCharacter => "a comment splits a character".toList
  | zeroCharacter => "a variable holds a zero character".toList

/-- The text without a comment. Of a text with one, as many bytes are kept as there are characters
before the hash sign, which must not split a character. -/
def withoutComment (t : Text) : Except Fault Text :=
  if '#' ∈ t then
    match takeBytes? (t.takeWhile (· != '#')).length t with
    | some kept => .ok kept
    | none => .error .splitCharacter
  else .ok t

def dropQuotes (t : Text) : Text := t.filter (· != '"')

/-- The variable that a line sets. Lines that start with a hash sign are not looked at further.
Quotes in the value are dropped wherever they stand; a value of nothing but quotes is empty and
still counts. -/
def assignment (line : Text) : Except Fault (Option (Text × Text)) := do
  let line := trim line
  if line.head? = some '#' then return none
  let (name, value) := (splitOnce? '=' line).getD (line, [])
  let name := trim (← withoutComment name)
  let value := trim (← withoutComment value)
  if name = [] ∨ value = [] then return none
  if '\x00' ∈ name ∨ '\x00' ∈ value then throw .zeroCharacter
  return some (name, dropQuotes value)

example : assignment "PATH = \"a b\"c # x".toList = .ok (some ("PATH".toList, "a bc".toList)) := by
  rfl

example : assignment "PATH=é#".toList = .error .splitCharacter := by rfl

def assignments (file : Text) : Except Fault (List (Text × Text)) := do
  return (← (splitOn '\n' file).mapM assignment).filterMap (·)

/-- The value of a variable after files have been read in order, each overriding what was set
before. -/
def resolve (name : Text) (initial : Option Text) (files : List Text) :
    Except Fault (Option Text) := do
  let set := (← files.mapM assignments).flatten
  return (set.reverse.lookup name).or initial

end ChatCommand.Environment
