import ChatCommand.Config.Value
import ChatCommand.Entity.Directory

/-! # Reading configurations

A configuration names the leader of commands, the current channel, the guild and the client to look
things up in, and the commands themselves.
-/

namespace ChatCommand

/-- A pattern and the template of the reply to what it accepts. -/
structure UsageReply where
  pattern : Text
  reply : Text
  deriving DecidableEq, Repr

structure Command where
  name : Text
  usages : List UsageReply
  deriving DecidableEq, Repr

structure Config where
  leader : Text
  channel : Option Text
  guild : Option Guild
  client : Option Client
  commands : List Command
  deriving DecidableEq, Repr

namespace Config

open Value

def readId (v : Value) : Except ReadError Id := do
  let t ← v.asText
  match Id.ofText? t with
  | some id => return id
  | none => .error (.invalidId t)

def readKindName (word : Text) : Except ReadError ChannelKind :=
  match ChannelKind.ofName? word with
  | some kind => .ok kind
  | none => .error (.unknownVariant word (ChannelKind.all.map ChannelKind.name))

/-- A kind is a word, or a table with that word as its only field and nothing in it: null in a
table, an empty inline table in an inline one. -/
def readChannelKind : Value → Except ReadError ChannelKind
  | .text word => readKindName word
  | .table [(word, content)] => do
    let kind ← readKindName word
    match content with
    | .null => return kind
    | _ => .error .wrongShape
  | .inline [(word, content)] => do
    let kind ← readKindName word
    match content with
    | .inline [] => return kind
    | _ => .error .wrongShape
  | .table _ => .error .notSingle
  | .inline _ => .error .notSingle
  | _ => .error .wrongShape

def readChannel : Value → Except ReadError Channel :=
  asRecord "Channel".toList ["id".toList, "name".toList, "kind".toList] fun f => do
    return {
      id := ← f.required "id".toList readId
      name := ← f.required "name".toList asText
      kind := ← f.required "kind".toList readChannelKind }

def readEmoji : Value → Except ReadError Emoji :=
  asRecord "Emoji".toList ["id".toList, "name".toList, "animated".toList] fun f => do
    return {
      id := ← f.required "id".toList readId
      name := ← f.required "name".toList asText
      animated := ← f.optional "animated".toList false asBool }

def readUser : Value → Except ReadError User :=
  asRecord "User".toList ["id".toList, "username".toList, "discriminator".toList] fun f => do
    return {
      id := ← f.required "id".toList readId
      username := ← f.required "username".toList asText
      discriminator := ← f.optional "discriminator".toList none (asOption asText) }

def readMember : Value → Except ReadError Member :=
  asRecord "Member".toList ["user".toList, "nickname".toList] fun f => do
    return {
      user := ← f.required "user".toList readUser
      nickname := ← f.optional "nickname".toList none (asOption asText) }

def readRole : Value → Except ReadError Role :=
  asRecord "Role".toList ["id".toList, "name".toList] fun f => do
    return {
      id := ← f.required "id".toList readId
      name := ← f.required "name".toList asText }

def readMessage : Value → Except ReadError Message :=
  asRecord "Message".toList ["id".toList, "channel".toList, "author".toList, "content".toList]
      fun f => do
    return {
      id := ← f.required "id".toList readId
      channel := ← f.required "channel".toList readId
      author := ← f.required "author".toList readId
      content := ← f.required "content".toList asText }

def readGuild : Value → Except ReadError Guild :=
  asRecord "Guild".toList ["channels".toList, "emojis".toList, "members".toList, "roles".toList,
      "messages".toList] fun f => do
    return {
      channels := ← f.optional "channels".toList [] (asList readChannel)
      emojis := ← f.optional "emojis".toList [] (asList readEmoji)
      members := ← f.optional "members".toList [] (asList readMember)
      roles := ← f.optional "roles".toList [] (asList readRole)
      messages := ← f.optional "messages".toList [] (asList readMessage) }

def readClient : Value → Except ReadError Client :=
  asRecord "Client".toList ["users".toList] fun f => do
    return { users := ← f.optional "users".toList [] (asList readUser) }

def readUsageReply : Value → Except ReadError UsageReply :=
  asRecord "UsageReply".toList ["pattern".toList, "reply".toList] fun f => do
    return {
      pattern := ← f.required "pattern".toList asText
      reply := ← f.required "reply".toList asText }

def readCommand : Value → Except ReadError Command :=
  asRecord "Command".toList ["name".toList, "usages".toList] fun f => do
    return {
      name := ← f.required "name".toList asText
      usages := ← f.required "usages".toList (asList readUsageReply) }

/-- Without a leader, commands start with an exclamation mark. -/
def ofValue : Value → Except ReadError Config :=
  asRecord "Config".toList ["leader".toList, "channel".toList, "guild".toList, "client".toList,
      "commands".toList] fun f => do
    return {
      leader := ← f.optional "leader".toList ['!'] asText
      channel := ← f.optional "channel".toList none (asOption asText)
      guild := ← f.optional "guild".toList none (asOption readGuild)
      client := ← f.optional "client".toList none (asOption readClient)
      commands := ← f.optional "commands".toList [] (asList readCommand) }

end Config

end ChatCommand
