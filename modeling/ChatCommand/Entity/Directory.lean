import ChatCommand.Entity.Basic

/-! # Directories

Where entities are looked up: the lists of a guild and of a client, and the parts of them that are
at hand for an argument. Every search returns the first fitting entry.
-/

namespace ChatCommand

structure Guild where
  channels : List Channel
  emojis : List Emoji
  members : List Member
  roles : List Role
  messages : List Message
  deriving DecidableEq, Repr

structure Client where
  users : List User
  deriving DecidableEq, Repr

/-- The lists at hand; a missing one cannot be searched at all. -/
structure Directories where
  channels : Option (List Channel)
  emojis : Option (List Emoji)
  members : Option (List Member)
  roles : Option (List Role)
  users : Option (List User)
  deriving DecidableEq, Repr

namespace Directories

def empty : Directories := ⟨none, none, none, none, none⟩

/-- Everything of the guild and the client that are present. -/
def of (guild : Option Guild) (client : Option Client) : Directories :=
  ⟨guild.map (·.channels), guild.map (·.emojis), guild.map (·.members), guild.map (·.roles),
    client.map (·.users)⟩

/-- Without the lists of the guild that are not named. -/
def only (names : List Text) (d : Directories) : Directories where
  channels := if "channels".toList ∈ names then d.channels else none
  emojis := if "emojis".toList ∈ names then d.emojis else none
  members := if "members".toList ∈ names then d.members else none
  roles := if "roles".toList ∈ names then d.roles else none
  users := d.users

def present (d : Directories) : List (Text × Bool) :=
  [("channels".toList, d.channels.isSome), ("emojis".toList, d.emojis.isSome),
    ("members".toList, d.members.isSome), ("roles".toList, d.roles.isSome),
    ("users".toList, d.users.isSome)]

def print (d : Directories) : Text :=
  let field := fun (name, ok) => name ++ ": ".toList ++ if ok then "true".toList else "false".toList
  "Directories \x7b ".toList ++ ", ".toList.intercalate (d.present.map field) ++ " \x7d".toList

end Directories

inductive LookupError where
  | unknownMember (id : Id)
  | unknownRole (id : Id)
  | unknownUser (id : Id)
  | unknownMessage (id channel : Id)
  deriving DecidableEq, Repr

def LookupError.message : LookupError → Text
  | unknownMember id => "unknown member: ".toList ++ id.print
  | unknownRole id => "unknown role: ".toList ++ id.print
  | unknownUser id => "unknown user: ".toList ++ id.print
  | unknownMessage id channel =>
    "unknown message ".toList ++ id.print ++ " in ".toList ++ channel.print

namespace Guild

def empty : Guild := ⟨[], [], [], [], []⟩

/-- The first channel with the name, hash signs in front of it aside. -/
def channelNamed? (guild : Guild) (name : Text) : Option Channel :=
  guild.channels.find? (·.name = name.dropWhile (· = '#'))

def channel? (guild : Guild) (id : Id) : Option Channel := guild.channels.find? (·.id = id)

def emoji? (guild : Guild) (id : Id) : Option Emoji := guild.emojis.find? (·.id = id)

def messagesIn (guild : Guild) (channel : Id) : List Message :=
  guild.messages.filter (·.channel = channel)

def member (guild : Guild) (id : Id) : Except LookupError Member :=
  match guild.members.find? (·.user.id = id) with
  | some member => .ok member
  | none => .error (.unknownMember id)

def role (guild : Guild) (id : Id) : Except LookupError Role :=
  match guild.roles.find? (·.id = id) with
  | some role => .ok role
  | none => .error (.unknownRole id)

def message (guild : Guild) (channel id : Id) : Except LookupError Message :=
  match (guild.messagesIn channel).find? (·.id = id) with
  | some message => .ok message
  | none => .error (.unknownMessage id channel)

end Guild

namespace Client

def empty : Client := ⟨[]⟩

def user (client : Client) (id : Id) : Except LookupError User :=
  match client.users.find? (·.id = id) with
  | some user => .ok user
  | none => .error (.unknownUser id)

end Client

/-- The first entity of each kind whose name starts with a given text. -/
structure Directory.Hits where
  channel : Option Channel
  emoji : Option Emoji
  member : Option Member
  role : Option Role
  user : Option User
  deriving DecidableEq, Repr

def Directory.search (guild : Guild) (client : Client) (lead : Text) : Directory.Hits where
  channel := guild.channels.find? (lead.isPrefixOf ·.name)
  emoji := guild.emojis.find? (lead.isPrefixOf ·.name)
  member := guild.members.find? (lead.isPrefixOf ·.user.username)
  role := guild.roles.find? (lead.isPrefixOf ·.name)
  user := client.users.find? (lead.isPrefixOf ·.username)

end ChatCommand
