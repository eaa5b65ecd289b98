import ChatCommand.Text.Basic

/-! # Lines and invocations

A line is a sequence of pieces: bare words, quoted words and skipped characters, which together
spell the line again. Its first word, if bare, invokes a command with the other words as items.
-/

namespace ChatCommand

inductive Piece where
  | bare (word : Text)
  | quoted (word : Text)
  | gap (c : Char)
  deriving DecidableEq, Repr

namespace Piece

def text : Piece → Text
  | bare word => word
  | quoted word => word
  | gap c => [c]

/-- The word, still quoted and escaped. -/
def item? : Piece → Option Text
  | bare word => some word
  | quoted word => some word
  | gap _ => none

def spell (pieces : List Piece) : Text := pieces.flatMap text

def items (pieces : List Piece) : List Text := pieces.filterMap item?

@[simp] theorem spell_nil : spell [] = [] := rfl

@[simp] theorem spell_cons (p : Piece) (ps : List Piece) :
    spell (p :: ps) = p.text ++ spell ps := by
  simp [spell]

end Piece

namespace Line

open Text

def isBare (c : Char) : Bool := c != '\\' && c != '"' && !isBlank c

/-- Splits a text behind the quote that closes it. Only a quote and a backslash can be escaped. -/
def closing? : Text → Option (Text × Text)
  | [] => none
  | [c] => if c = '"' then some ([c], []) else none
  | c :: d :: rest =>
    if c = '"' then some ([c], d :: rest)
    else if c = '\\' then
      if d = '"' ∨ d = '\\' then (closing? rest).map fun r => (c :: d :: r.1, r.2) else none
    else (closing? (d :: rest)).map fun r => (c :: r.1, r.2)

theorem append_of_closing? {t body rest : Text} (h : closing? t = some (body, rest)) :
    body ++ rest = t := by
  fun_induction closing? t generalizing body rest with
  | case1 => simp at h
  | case2 => simp_all
  | case3 => simp at h
  | case4 =>
    obtain ⟨rfl, rfl⟩ := Prod.mk.inj (Option.some.inj h)
    rfl
  | case5 d r hd _ ih =>
    obtain ⟨⟨b, r'⟩, hb, he⟩ := Option.map_eq_some_iff.mp h
    obtain ⟨rfl, rfl⟩ : '\\' :: d :: b = body ∧ r' = rest := by simpa using he
    simp [ih hb]
  | case6 => simp at h
  | case7 c d r hc hb ih =>
    obtain ⟨⟨b, r'⟩, hb, he⟩ := Option.map_eq_some_iff.mp h
    obtain ⟨rfl, rfl⟩ : c :: b = body ∧ r' = rest := by simpa using he
    simp [ih hb]

theorem length_of_closing? {t body rest : Text} (h : closing? t = some (body, rest)) :
    rest.length ≤ t.length := by
  have := congrArg List.length (append_of_closing? h)
  simp at this
  omega

/-- The pieces of a line: longest bare words, quoted words, and single characters in between. A
quote that is never closed is skipped and what follows it is read anew. -/
def scan : Text → List Piece
  | [] => []
  | c :: rest =>
    if isBare c then .bare (c :: rest.takeWhile isBare) :: scan (rest.dropWhile isBare)
    else if c = '"' then
      match _ : closing? rest with
      | some (body, rest') => .quoted (c :: body) :: scan rest'
      | none => .gap c :: scan rest
    else .gap c :: scan rest
termination_by line => line.length
decreasing_by
  · simp only [List.length_cons]
    have := (List.dropWhile_suffix (l := rest) isBare).length_le
    omega
  · have := length_of_closing? ‹_›
    simp only [List.length_cons]
    omega
  · simp
  · simp

theorem spell_scan (line : Text) : Piece.spell (scan line) = line := by
  fun_induction scan line with
  | case1 => rfl
  | case2 c rest _ ih => simp [Piece.text, ih, List.takeWhile_append_dropWhile]
  | case3 rest body rest' h _ ih => simp [Piece.text, ih, append_of_closing? h]
  | case4 rest _ h ih => simp [Piece.text, ih]
  | case5 c rest _ _ ih => simp [Piece.text, ih]

end Line

/-- A command name with its items and the text they were read from. -/
structure Invocation where
  name : Text
  items : List Text
  text : Text
  deriving DecidableEq, Repr

namespace Invocation

/-- The invocation by a sequence of pieces, if its first word is bare. -/
def ofPieces? : List Piece → Option Invocation
  | [] => none
  | .bare name :: rest => some ⟨name, Piece.items rest, Text.trimStart (Piece.spell rest)⟩
  | .quoted _ :: _ => none
  | .gap _ :: rest => ofPieces? rest

def ofLine? (line : Text) : Option Invocation := ofPieces? (Line.scan line)

end Invocation

end ChatCommand
