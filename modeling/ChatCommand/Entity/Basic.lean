import ChatCommand.Entity.Id

/-! # Entities

What arguments can refer to: channels, emojis, users, members, roles and messages.
-/

namespace ChatCommand

inductive ChannelKind where
  | text
  | voice
  | category
  | news
  | stage
  | forum
  | thread
  deriving DecidableEq, Repr

namespace ChannelKind

def all : List ChannelKind := [text, voice, category, news, stage, forum, thread]

theorem mem_all (kind : ChannelKind) : kind ∈ all := by cases kind <;> decide

def name : ChannelKind → Text
  | text => "text".toList
  | voice => "voice".toList
  | category => "category".toList
  | news => "news".toList
  | stage => "stage".toList
  | forum => "forum".toList
  | thread => "thread".toList

def ofName? (t : Text) : Option ChannelKind := all.find? (·.name = t)

theorem ofName?_name (kind : ChannelKind) : ofName? kind.name = some kind := by
  cases kind <;> decide

end ChannelKind

structure Channel where
  id : Id
  name : Text
  kind : ChannelKind
  deriving DecidableEq, Repr

inductive EmojiKind where
  | static
  | animated
  deriving DecidableEq, Repr

def EmojiKind.name : EmojiKind → Text
  | static => "static".toList
  | animated => "animated".toList

def EmojiKind.ofName? (t : Text) : Option EmojiKind := [static, animated].find? (·.name = t)

structure Emoji where
  id : Id
  name : Text
  animated : Bool
  deriving DecidableEq, Repr

def Emoji.kind (emoji : Emoji) : EmojiKind := if emoji.animated then .animated else .static

structure User where
  id : Id
  username : Text
  discriminator : Option Text
  deriving DecidableEq, Repr

/-- The username, followed by the discriminator if there is one. -/
def User.tag (user : User) : Text :=
  match user.discriminator with
  | some d => user.username ++ '#' :: d
  | none => user.username

structure Member where
  user : User
  nickname : Option Text
  deriving DecidableEq, Repr

def Member.displayName (member : Member) : Text := member.nickname.getD member.user.username

structure Role where
  id : Id
  name : Text
  deriving DecidableEq, Repr

structure Message where
  id : Id
  channel : Id
  author : Id
  content : Text
  deriving DecidableEq, Repr

end ChatCommand
