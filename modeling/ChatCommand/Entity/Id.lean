import ChatCommand.Number.Decimal

/-! # Ids and mentions

An id is a number written with 17 to 19 digits. It is printed without leading zeros. A mention wraps
an id in angle brackets and a mark for what it names. The channel mark is accepted for everything.
-/

namespace ChatCommand

structure Id where
  value : Nat
  deriving DecidableEq, Repr

namespace Id

open Text Decimal

def ofText? (t : Text) : Option Id :=
  if 17 ≤ t.length ∧ t.length ≤ 19 ∧ t.all isDigit then some ⟨ofDigits t⟩ else none

def print (id : Id) : Text := Nat.toDigits 10 id.value

/-- Whether the text has a run of at least 17 digits. -/
def appearsIn (t : Text) : Bool :=
  match t with
  | [] => false
  | c :: rest =>
    17 ≤ ((c :: rest).takeWhile isDigit).length ||
      appearsIn rest

end Id

inductive Mention where
  | channel
  | user
  | role
  | emoji
  deriving DecidableEq, Repr

namespace Mention

open Text

/-- The id behind the mark of this kind of mention. -/
def inner? : Mention → Text → Option Id
  | channel, _ => none
  | user, '@' :: '!' :: t => Id.ofText? t
  | user, '@' :: t => Id.ofText? t
  | role, '@' :: '&' :: t => Id.ofText? t
  | emoji, 'a' :: ':' :: t => (splitOnce? ':' t).bind fun r => Id.ofText? r.2
  | emoji, ':' :: t => (splitOnce? ':' t).bind fun r => Id.ofText? r.2
  | _, _ => none

/-- The id in a text that is an id, a channel mention or a mention of this kind. -/
def extract? (kind : Mention) (t : Text) : Option Id :=
  (Id.ofText? t).or <|
    ((after? ['<'] t).bind (before? ['>'])).bind fun t =>
      ((after? ['#'] t).bind Id.ofText?).or (kind.inner? t)

end Mention

end ChatCommand
