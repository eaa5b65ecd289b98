import ChatCommand.Template.Basic

/-! # Reading templates

A template is first split at its keys, which cannot be nested and must be closed and not empty.
Then each key is read as a name with an optional coercion.
-/

namespace ChatCommand

inductive TemplateError where
  | nested
  | unterminated
  | empty
  | unknownCoercion (word : Text)
  deriving DecidableEq, Repr

def TemplateError.message : TemplateError → Text
  | nested => "nested templates are not allowed".toList
  | unterminated => "non-terminated template found".toList
  | empty => "empty templates are not allowed".toList
  | unknownCoercion word => "unknown coercion: ".toList ++ word

def Coercion.ofText (t : Text) : Except TemplateError Coercion :=
  match ofName? t with
  | some c => .ok c
  | none => .error (.unknownCoercion t)

namespace Template

open Text

/-- Text between keys, or what stands between the braces of a key. -/
inductive Part where
  | text (t : Text)
  | key (body : Text)
  deriving DecidableEq, Repr

/-- Splits off the body of a key, whose opening has been read, and its closing brace. -/
def closeKey : Text → Except TemplateError (Text × Text)
  | [] => .error .unterminated
  | c :: rest =>
    if c = '}' then .ok ([], rest)
    else if c = '{' then .error .nested
    else match closeKey rest with
      | .ok (body, rest') => .ok (c :: body, rest')
      | .error e => .error e

theorem eq_of_closeKey {t body rest : Text} (h : closeKey t = .ok (body, rest)) :
    t = body ++ '}' :: rest := by
  fun_induction closeKey t generalizing body rest with
  | case1 => simp at h
  | case2 =>
    obtain ⟨rfl, rfl⟩ := Prod.mk.inj (Except.ok.inj h)
    rfl
  | case3 => simp at h
  | case4 c r _ _ b r' hb ih =>
    obtain ⟨rfl, rfl⟩ := Prod.mk.inj (Except.ok.inj h)
    rw [ih hb, List.cons_append]
  | case5 => simp at h

/-- Puts a character in front of the parts, into the text that is first if there is one. -/
def Part.push (c : Char) : List Part → List Part
  | .text t :: parts => .text (c :: t) :: parts
  | parts => .text [c] :: parts

def split (input : Text) : Except TemplateError (List Part) :=
  match input with
  | '$' :: '{' :: rest =>
    match _ : closeKey rest with
    | .ok (body, rest') => (.key body :: ·) <$> split rest'
    | .error e => .error e
  | c :: rest => Part.push c <$> split rest
  | [] => .ok []
termination_by input.length
decreasing_by
  · have h := congrArg List.length (eq_of_closeKey ‹_›)
    simp only [List.length_append, List.length_cons] at h ⊢
    omega
  · simp

/-- Reads what stands between the braces of a key. Without a coercion the string is meant. -/
def readKey (body : Text) : Except TemplateError Segment := do
  let (name, coercion) ← match splitOnce? ':' body with
    | some (name, word) => (trim name, ·) <$> Coercion.ofText (trim word)
    | none => .ok (trim body, .string)
  if name = [] then .error .empty else return .key name coercion

def Part.segment : Part → Except TemplateError Segment
  | text t => .ok (.text t)
  | key body => readKey body

def ofBody (body : Text) : Except TemplateError Template := do
  let parts ← split body
  if .key [] ∈ parts then .error .empty
  else return ⟨body, ← parts.mapM Part.segment⟩

end Template

end ChatCommand
