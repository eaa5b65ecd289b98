import ChatCommand.Text.Basic

/-! # Templates

A reply with keys such as `${member:member}`, each of which names an argument and the coercion that
turns it into text.
-/

namespace ChatCommand

inductive Coercion where
  | text
  | string
  | id
  | boolean
  | number
  | integer
  | presence
  | channel
  | emoji
  | member
  | user
  | role
  | message
  deriving DecidableEq, Repr

namespace Coercion

def all : List Coercion :=
  [text, string, id, boolean, number, integer, presence, channel, emoji, member, user, role,
    message]

theorem mem_all (c : Coercion) : c ∈ all := by cases c <;> decide

def name : Coercion → Text
  | text => "text".toList
  | string => "string".toList
  | id => "id".toList
  | boolean => "boolean".toList
  | number => "number".toList
  | integer => "integer".toList
  | presence => "exists".toList
  | channel => "channel".toList
  | emoji => "emoji".toList
  | member => "member".toList
  | user => "user".toList
  | role => "role".toList
  | message => "message".toList

def ofName? (t : Text) : Option Coercion := all.find? (·.name = t)

theorem ofName?_name (c : Coercion) : ofName? c.name = some c := by cases c <;> decide

theorem name_of_ofName? {t : Text} {c : Coercion} (h : ofName? t = some c) : c.name = t := by
  simpa using List.find?_some h

end Coercion

namespace Template

inductive Segment where
  | text (t : Text)
  | key (name : Text) (coercion : Coercion)
  deriving DecidableEq, Repr

def Segment.key? : Segment → Option Text
  | text _ => none
  | key name _ => some name

def Segment.print : Segment → Text
  | text t => t
  | key name coercion => ['$', '{'] ++ name ++ ':' :: coercion.name ++ ['}']

/-- The text of a template, in which every key has its coercion. -/
def print (segments : List Segment) : Text := segments.flatMap Segment.print

end Template

structure Template where
  body : Text
  segments : List Template.Segment
  deriving DecidableEq, Repr

/-- The names of the arguments the template asks for, in order. -/
def Template.keys (template : Template) : List Text :=
  template.segments.filterMap Template.Segment.key?

end ChatCommand
