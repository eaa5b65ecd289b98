import ChatCommand.Argument.Basic
import ChatCommand.Entity.Directory
import ChatCommand.Entity.Id

/-! # Looking up arguments

An argument that is an id or a mention refers to the first entity with that id; any other text is
looked for among the names. Looking something up in a list that is not at hand is an error.
-/

namespace ChatCommand

inductive MissingDirectory where
  | channels
  | emojis
  | members
  | roles
  | users
  deriving DecidableEq, Repr

def MissingDirectory.message : MissingDirectory → Text
  | channels => "cannot fetch channels without a guild".toList
  | emojis => "cannot fetch emojis without a guild".toList
  | members => "cannot fetch members without a guild".toList
  | roles => "cannot fetch roles without a guild".toList
  | users => "cannot fetch users without a client".toList

namespace Argument

variable (d : Directories) (arg : Argument)

/-- Finds a channel by id or name. If it is not of one of the kinds, nothing is found; no kinds
means all. -/
def channel (kinds : List ChannelKind) : Except MissingDirectory (Option Channel) :=
  match d.channels with
  | none => .error .channels
  | some channels =>
    let found : Option Channel := match Mention.channel.extract? arg.text with
      | some id => channels.find? (·.id = id)
      | none => channels.find? (·.name = arg.text)
    .ok (found.filter fun c => kinds.isEmpty || kinds.contains c.kind)

/-- Finds an emoji by id or name. If it is not of one of the kinds, nothing is found; no kinds
means all. -/
def emoji (kinds : List EmojiKind) : Except MissingDirectory (Option Emoji) :=
  match d.emojis with
  | none => .error .emojis
  | some emojis =>
    let found : Option Emoji := match Mention.emoji.extract? arg.text with
      | some id => emojis.find? (·.id = id)
      | none => emojis.find? (·.name = arg.text)
    .ok (found.filter fun e => kinds.isEmpty || kinds.contains e.kind)

/-- Finds a member by id, or else by tag, nickname and username in this order. -/
def member : Except MissingDirectory (Option Member) :=
  match d.members with
  | none => .error .members
  | some members =>
    .ok <| match Mention.user.extract? arg.text with
      | some id => members.find? (·.user.id = id)
      | none =>
        (members.find? (·.user.tag = arg.text)).or <|
          (members.find? (·.nickname = some arg.text)).or <|
            members.find? (·.user.username = arg.text)

/-- Finds a user by id, or else by tag and username in this order. -/
def user : Except MissingDirectory (Option User) :=
  match d.users with
  | none => .error .users
  | some users =>
    .ok <| match Mention.user.extract? arg.text with
      | some id => users.find? (·.id = id)
      | none => (users.find? (·.tag = arg.text)).or (users.find? (·.username = arg.text))

def role : Except MissingDirectory (Option Role) :=
  match d.roles with
  | none => .error .roles
  | some roles =>
    .ok <| match Mention.role.extract? arg.text with
      | some id => roles.find? (·.id = id)
      | none => roles.find? (·.name = arg.text)

/-- Finds a message among those of a channel, by id only. -/
def message? (messages : List Message) : Option Message :=
  (Mention.channel.extract? arg.text).bind fun id => messages.find? (·.id = id)

end Argument

end ChatCommand
