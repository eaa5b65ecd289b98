import ChatCommand.Argument.Basic
import ChatCommand.Text.Lowercase
import ChatCommand.Usage.Basic

/-! # One usage against one input

A cursor stands for the input that is not consumed yet, once as items and once as text. Each token
consumes input and may bind an argument, from left to right, and no text may be left in the end.
-/

namespace ChatCommand

open Text

structure Cursor where
  items : List Text
  text : Text
  deriving DecidableEq, Repr

namespace Cursor

/-- Drops the fewest characters that make up `n` bytes, or all of them. -/
def dropBytes : Nat → Text → Text
  | 0, t => t
  | _ + 1, [] => []
  | n + 1, c :: t => dropBytes (n + 1 - c.utf8Size) t

theorem dropBytes_suffix (n : Nat) (t : Text) : dropBytes n t <:+ t := by
  induction t generalizing n with
  | nil => cases n <;> exact List.suffix_refl _
  | cons c t ih =>
    cases n with
    | zero => exact List.suffix_refl _
    | succ n => exact (ih _).trans (List.suffix_cons c t)

@[simp] theorem dropBytes_utf8Size_append (s t : Text) : dropBytes (utf8Size s) (s ++ t) = t := by
  induction s with
  | nil => simp [dropBytes]
  | cons c s ih =>
    obtain ⟨n, hn⟩ := Nat.exists_eq_add_of_lt c.utf8Size_pos
    have h : utf8Size (c :: s) = (n + utf8Size s) + 1 := by simp [hn]; omega
    rw [h, List.cons_append, dropBytes]
    have : n + utf8Size s + 1 - c.utf8Size = utf8Size s := by omega
    rw [this, ih]

/-- The text behind its first `n` bytes and the blanks that follow them. -/
def skip (n : Nat) (t : Text) : Text := trimStart (dropBytes n t)

theorem skip_suffix (n : Nat) (t : Text) : skip n t <:+ t :=
  (trimStart_suffix _).trans (dropBytes_suffix n t)

def advance (c : Cursor) : Cursor :=
  match c.items with
  | [] => c
  | item :: items => ⟨items, skip (utf8Size item) c.text⟩

def clear : Cursor := ⟨[], []⟩

def item (c : Cursor) : Text := c.items.head?.getD []

theorem advance_text_suffix (c : Cursor) : c.advance.text <:+ c.text := by
  unfold advance
  split
  · exact List.suffix_refl _
  · exact skip_suffix _ _

end Cursor

/-- The arguments bound by a usage, with the items and the text it left over. -/
structure Matched where
  usage : Text
  args : List Argument
  rest : List Text
  remaining : Text
  deriving DecidableEq, Repr

/-- A place or a name under which nothing is bound. -/
inductive AbsentArgument where
  | place (size index : Nat)
  | key (name usage : Text)
  deriving DecidableEq, Repr

def AbsentArgument.message : AbsentArgument → Text
  | place size index =>
    "index out of bounds: the len is ".toList ++ Nat.toDigits 10 size ++
      " but the index is ".toList ++ Nat.toDigits 10 index
  | key name usage => "no argument named '".toList ++ name ++ "' in '".toList ++ usage ++ "'".toList

namespace Matched

variable (m : Matched)

/-- The first argument bound to the name. -/
def get? (name : Text) : Option Argument := m.args.find? (·.name = name)

def nth (index : Nat) : Except AbsentArgument Argument :=
  match m.args[index]? with
  | some arg => .ok arg
  | none => .error (.place m.args.length index)

def named (name : Text) : Except AbsentArgument Argument :=
  match m.get? name with
  | some arg => .ok arg
  | none => .error (.key name m.usage)

end Matched

namespace Usage

/-- Whether the item is a hyphen and the flag's name in some letter case. -/
def isFlag (name item : Text) : Bool :=
  match item with
  | '-' :: word => lowercase word = name
  | _ => false

/-- What a token binds, as a name and a text, and the input it leaves. -/
def Token.take (pattern : Text) (c : Cursor) :
    Token → Except Failure (Option (Text × Text) × Cursor)
  | literal options =>
    let word := lowercase c.item
    if word ∈ options then .ok (some (word, word), c.advance)
    else .error (.unmatchedOption pattern word)
  | flag name =>
    .ok (some (name, if isFlag name c.item then "true".toList else "false".toList), c.advance)
  | param name optional spread =>
    let text := if spread then c.text else c.item
    if text = [] ∧ !optional then .error (.unmatchedParameter pattern name)
    else .ok (some (name, text), if spread then .clear else c.advance)
  | ellipsis => .ok (none, .clear)

/-- The bindings of consecutive tokens and the input they leave. -/
def takeAll (pattern : Text) : List Token → Cursor → Except Failure (List (Text × Text) × Cursor)
  | [], c => .ok ([], c)
  | token :: tokens, c => do
    let (bound, c) ← token.take pattern c
    let (more, c) ← takeAll pattern tokens c
    return (bound.toList ++ more, c)

def attempt (usage : Usage) (items : List Text) (text : Text) : Except Failure Matched := do
  let (bound, c) ← takeAll usage.pattern usage.tokens ⟨items, text⟩
  if c.text = [] then
    return ⟨usage.pattern, bound.map fun (name, text) => ⟨usage.pattern, name, text⟩, c.items,
      c.text⟩
  else .error (.invalidArguments usage.pattern)

end Usage

end ChatCommand
