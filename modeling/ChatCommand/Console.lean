import ChatCommand.Config.Reader
import ChatCommand.Line
import ChatCommand.Matching.Choice
import ChatCommand.Template.Parser
import ChatCommand.Template.Render

/-! # Consoles

A console is a checked configuration: the current channel exists, every pattern and template can be
read, every template asks for arguments of its own pattern only, and no command is declared twice.
It answers lines that invoke its commands.
-/

namespace ChatCommand

inductive ConsoleError where
  | unknownChannel (name : Text)
  | channelWithoutGuild (name : Text)
  | invalidUsage (command : Text) (error : Usage.PatternError)
  | invalidReply (command : Text) (error : TemplateError)
  | undeclaredKey (command key usage : Text)
  | repeatedCommand (command : Text)
  deriving DecidableEq, Repr

def ConsoleError.message : ConsoleError → Text
  | unknownChannel name => "unknown channel: ".toList ++ name
  | channelWithoutGuild name => "channel '".toList ++ name ++ "' needs a [guild]".toList
  | invalidUsage command error =>
    "invalid usage for '".toList ++ command ++ "': ".toList ++ error.message
  | invalidReply command error =>
    "invalid reply for '".toList ++ command ++ "': ".toList ++ error.message
  | undeclaredKey command key usage =>
    "reply for '".toList ++ command ++ "' uses '".toList ++ key ++ "' which '".toList ++ usage ++
      "' does not declare".toList
  | repeatedCommand command => "'".toList ++ command ++ "' was declared more than once".toList

structure Console where
  leader : Text
  channel : Option Id
  guild : Option Guild
  client : Option Client
  commands : List (Text × Usages Template)

namespace Console

def currentChannel (channel : Option Text) (guild : Option Guild) :
    Except ConsoleError (Option Id) :=
  match channel, guild with
  | none, _ => .ok none
  | some name, none => .error (.channelWithoutGuild name)
  | some name, some guild =>
    match guild.channelNamed? name with
    | some channel => .ok (some channel.id)
    | none => .error (.unknownChannel name)

def declare (command : Text) (entry : UsageReply) : Except ConsoleError (Usage × Template) := do
  let usage ← (Usage.ofPattern entry.pattern).mapError (.invalidUsage command)
  let template ← (Template.ofBody entry.reply).mapError (.invalidReply command)
  match template.keys.find? (· ∉ usage.keys) with
  | some key => .error (.undeclaredKey command key usage.pattern)
  | none => return (usage, template)

/-- Reads commands none of whose names is in `seen`. -/
def declareAll (seen : List Text) :
    List Command → Except ConsoleError (List (Text × Usages Template))
  | [] => .ok []
  | command :: commands => do
    let entries ← command.usages.mapM (declare command.name)
    if command.name ∈ seen then .error (.repeatedCommand command.name)
    let more ← declareAll (command.name :: seen) commands
    return (command.name, ⟨entries⟩) :: more

def ofConfig (config : Config) : Except ConsoleError Console := do
  let channel ← currentChannel config.channel config.guild
  let commands ← declareAll [] config.commands
  return ⟨config.leader, channel, config.guild, config.client, commands⟩

variable (console : Console)

def directories : Directories := .of console.guild console.client

def messages : Option (List Message) :=
  match console.guild, console.channel with
  | some guild, some channel => some (guild.messagesIn channel)
  | _, _ => none

def invoked? (line : Text) : Option (Invocation × Usages Template) := do
  let line ← Text.after? console.leader (Text.trim line)
  let invocation ← Invocation.ofLine? line
  let usages ← console.commands.lookup invocation.name
  return (invocation, usages)

def usageReminder (command : Text) (failure : Failure) : Text :=
  "usage: ".toList ++ Text.trimEnd (console.leader ++ command ++ ' ' :: failure.usage) ++
    " (".toList ++ failure.kind.print ++ ' ' :: failure.subkind.print ++ ")".toList

/-- The reply to a line, if it invokes a command that has usages. -/
def handle (line : Text) : Except RenderError (Option Text) :=
  match console.invoked? line with
  | none => .ok none
  | some (invocation, usages) =>
    match usages.find invocation.items invocation.text with
    | .success template matched =>
      (some ·.text) <$> template.render console.directories console.messages matched
    | .failure failure => .ok (some (console.usageReminder invocation.name failure))
    | .empty => .ok none

end Console

end ChatCommand
