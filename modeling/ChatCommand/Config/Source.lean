import ChatCommand.Config.Reader
import ChatCommand.Config.Toml.Document

/-! # Loading configurations

A configuration is loaded from the document found at a path. A sample is offered to someone who has
no readable configuration yet.
-/

namespace ChatCommand.Config

inductive Source where
  | absent
  | malformed
  | document (value : Value)
  deriving Repr

def Source.ofText (t : Text) : Source :=
  match Toml.parse? t with
  | some value => document value
  | none => malformed

inductive LoadError where
  | unreadable (path : Text)
  | invalid (path : Text)
  deriving DecidableEq, Repr

def LoadError.message : LoadError → Text
  | unreadable path => "cannot read '".toList ++ path ++ "'".toList
  | invalid path => "cannot parse '".toList ++ path ++ "'".toList

def load (path : Text) : Source → Except LoadError Config
  | .absent => .error (.unreadable path)
  | .malformed => .error (.invalid path)
  | .document value => (ofValue value).mapError fun _ => .invalid path

def sample : Text := "leader  = \"!\"
channel = \"general\"

[guild]
channels = [
    \x7b id = \"100000000000000001\", name = \"general\", kind = \"text\" \x7d,
    \x7b id = \"100000000000000002\", name = \"voice\",   kind = \"voice\" \x7d,
]
emojis = [
    \x7b id = \"200000000000000001\", name = \"Kappa\" \x7d,
    \x7b id = \"200000000000000002\", name = \"PogChamp\", animated = true \x7d,
]
members = [
    \x7b user = \x7b id = \"300000000000000001\", username = \"museun\", discriminator = \"0001\" \x7d, nickname = \"shaken_bot\" \x7d,
]
roles = [
    \x7b id = \"400000000000000001\", name = \"moderator\" \x7d,
]
messages = [
    \x7b id = \"500000000000000001\", channel = \"100000000000000001\", author = \"300000000000000001\", content = \"hello world\" \x7d,
]

[client]
users = [
    \x7b id = \"300000000000000001\", username = \"museun\", discriminator = \"0001\" \x7d,
    \x7b id = \"300000000000000002\", username = \"someone\" \x7d,
]

[[commands]]
name = \"hello\"

[[commands.usages]]
pattern = \"[name...]\"
reply   = \"hello $\x7bname\x7d\"

[[commands]]
name = \"ban\"

[[commands.usages]]
pattern = \"<member>\"
reply   = \"banning $\x7bmember:member\x7d\"

[[commands.usages]]
pattern = \"<member> -quiet <reason...>\"
reply   = \"quietly banning $\x7bmember:member\x7d for: $\x7breason\x7d\"

[[commands]]
name = \"quote\"

[[commands.usages]]
pattern = \"<id>\"
reply   = \"$\x7bid:message\x7d\"
".toList

end ChatCommand.Config
