import ChatCommand.Text.Basic

/-! # Failures

Why a usage does not accept a line, or why a handler refuses an argument.
-/

namespace ChatCommand

inductive FailureKind where
  | unmatched
  | invalid
  deriving DecidableEq, Repr

/-- A literal without a fitting option, a parameter without a value, arguments left over, or a
handler's own word for it. -/
inductive FailureSubkind where
  | option
  | parameter
  | arguments
  | other (word : Text)
  deriving DecidableEq, Repr

/-- The name and the text are empty where none is at fault. -/
structure Failure where
  usage : Text
  name : Text
  text : Text
  kind : FailureKind
  subkind : FailureSubkind
  item : Option Text
  deriving DecidableEq, Repr

def FailureKind.print : FailureKind → Text
  | unmatched => "unmatched".toList
  | invalid => "invalid".toList

def FailureSubkind.print : FailureSubkind → Text
  | option => "option".toList
  | parameter => "parameter".toList
  | arguments => "arguments".toList
  | other word => word

/-- The built-in subkind of this name, or else the handler's own. -/
def FailureSubkind.ofWord (word : Text) : FailureSubkind :=
  ([option, parameter, arguments].find? (·.print = word)).getD (other word)

theorem FailureSubkind.print_ofWord (word : Text) : (ofWord word).print = word := by
  unfold ofWord
  cases h : [option, parameter, arguments].find? (·.print = word) with
  | none => rfl
  | some s => simpa using List.find?_some h

namespace Failure

/-- Empty fields are left out. -/
def print (f : Failure) : Text :=
  f.kind.print ++ "/".toList ++ f.subkind.print ++ " for '".toList ++ f.usage ++ "'".toList ++
    (if f.name = [] then [] else " at '".toList ++ f.name ++ "'".toList) ++
    (if f.text = [] then [] else " with '".toList ++ f.text ++ "'".toList) ++
    (match f.item with
      | some item => " (".toList ++ item ++ ")".toList
      | none => [])

/-- No option of a literal is the item `text`. -/
def unmatchedOption (usage text : Text) : Failure :=
  ⟨usage, [], text, .unmatched, .option, none⟩

/-- The required parameter `name` has no value. -/
def unmatchedParameter (usage name : Text) : Failure :=
  ⟨usage, name, [], .unmatched, .parameter, none⟩

/-- Text is left after the last token. -/
def invalidArguments (usage : Text) : Failure :=
  ⟨usage, [], [], .invalid, .arguments, none⟩

end Failure

end ChatCommand
