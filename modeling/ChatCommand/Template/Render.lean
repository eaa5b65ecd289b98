import ChatCommand.Argument.Lookup
import ChatCommand.Matching.Attempt
import ChatCommand.Number.Shortest
import ChatCommand.Template.Basic

/-! # Filling templates

A template is filled from left to right. The first key without a value decides the reply: an error
if the value cannot even be asked for, or else a reply that it cannot be found.
-/

namespace ChatCommand

inductive RenderError where
  | noArgument (usage name : Text)
  | missingDirectory (directory : MissingDirectory)
  | noMessages
  deriving DecidableEq, Repr

def RenderError.message : RenderError → Text
  | noArgument usage name =>
    "'".toList ++ usage ++ "' has no argument named '".toList ++ name ++ "'".toList
  | missingDirectory directory => directory.message
  | noMessages => "cannot fetch messages without a channel".toList

/-- A filled template, or the coercion that found nothing for the given string. -/
inductive Reply where
  | filled (t : Text)
  | notFound (coercion : Coercion) (given : Text)
  deriving DecidableEq, Repr

namespace Reply

def text : Reply → Text
  | filled t => t
  | notFound coercion given =>
    "I can't find ".toList ++ coercion.name ++ " '".toList ++ given ++ "'".toList

/-- Puts text in front of a filled template. -/
def after (t : Text) : Reply → Reply
  | filled t' => filled (t ++ t')
  | notFound coercion given => notFound coercion given

def trim : Reply → Reply
  | filled t => filled (Text.trim t)
  | notFound coercion given => notFound coercion given

end Reply

def Coercion.found {α : Type} (write : α → Text) :
    Except MissingDirectory (Option α) → Except RenderError (Option Text)
  | .ok entity => .ok (entity.map write)
  | .error directory => .error (.missingDirectory directory)

/-- The text of an argument under a coercion, if it has one. -/
def Coercion.value (d : Directories) (messages : Option (List Message)) (arg : Argument) :
    Coercion → Except RenderError (Option Text)
  | text => .ok (some arg.text)
  | string => .ok (some arg.string)
  | id => .ok arg.id?
  | boolean => .ok (arg.boolean?.map fun b => if b then "yes".toList else "no".toList)
  | number => .ok ((arg.number? .full).map Binary64.print)
  | integer => .ok ((arg.integer? .full).map Binary64.print)
  | presence => .ok (some (if arg.isPresent then "true".toList else "false".toList))
  | channel => found (fun c => '#' :: c.name) (arg.channel d [])
  | emoji => found (fun e => ':' :: e.name ++ [':']) (arg.emoji d [])
  | member => found Member.displayName (arg.member d)
  | user => found User.tag (arg.user d)
  | role => found (fun r => '@' :: r.name) (arg.role d)
  | message =>
    match messages with
    | some messages => .ok ((arg.message? messages).map (·.content))
    | none => .error .noMessages

namespace Template

variable (d : Directories) (messages : Option (List Message)) (m : Matched)

def fill : List Segment → Except RenderError Reply
  | [] => .ok (.filled [])
  | .text t :: rest => Reply.after t <$> fill rest
  | .key name coercion :: rest =>
    match m.get? name with
    | none => .error (.noArgument m.usage name)
    | some arg =>
      match coercion.value d messages arg with
      | .error e => .error e
      | .ok none => .ok (.notFound coercion arg.string)
      | .ok (some t) => Reply.after t <$> fill rest

/-- The reply, without blanks around a filled template. -/
def render (template : Template) : Except RenderError Reply :=
  Reply.trim <$> fill d messages m template.segments

end Template

end ChatCommand
