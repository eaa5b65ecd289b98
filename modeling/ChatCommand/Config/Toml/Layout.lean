import ChatCommand.Text.Basic

/-! # Layout and strings of TOML

Between the keys and values of a document stand gaps, comments and line ends. A string stands
between quotation marks, single ones if it is taken literally. One on a single line has one mark at
each end, a long one has three.
-/

namespace ChatCommand.Config.Toml

/-- Writes every line end as a single character. A carriage return on its own is left. -/
def foldLineEnds : Text → Text
  | '\r' :: '\n' :: t => '\n' :: foldLineEnds t
  | c :: t => c :: foldLineEnds t
  | [] => []

def isGap (c : Char) : Bool := c == ' ' || c == '\t'

def skipGap (t : Text) : Text := t.dropWhile isGap

def isCommentChar (c : Char) : Bool := c == '\t' || 0x20 ≤ c.toNat

def skipComment : Text → Text
  | '#' :: t => t.dropWhile isCommentChar
  | t => t

def skipLines (t : Text) : Text := go t.length t
where
  go : Nat → Text → Text
    | 0, t => t
    | n + 1, t =>
      match skipComment (skipGap t) with
      | '\n' :: rest => go n rest
      | rest => rest

/-- What follows the end of a line, after gaps and a comment. -/
def endLine? (t : Text) : Option Text :=
  match skipComment (skipGap t) with
  | [] => some []
  | '\n' :: rest => some rest
  | _ => none

/-- The characters of bare keys, numbers and dates. -/
def isWordChar (c : Char) : Bool := c.isAlphanum || c == '_' || c == '-'

def word? (t : Text) : Option (Text × Text) :=
  match t.takeWhile isWordChar with
  | [] => none
  | word => some (word, t.dropWhile isWordChar)

def hexValue? (c : Char) : Option Nat :=
  if '0' ≤ c ∧ c ≤ '9' then some (c.toNat - '0'.toNat)
  else if 'a' ≤ c ∧ c ≤ 'f' then some (c.toNat - 'a'.toNat + 10)
  else if 'A' ≤ c ∧ c ≤ 'F' then some (c.toNat - 'A'.toNat + 10)
  else none

def codePoint? (digits : Text) : Option Char := do
  let values ← digits.mapM hexValue?
  let n := values.foldl (fun n v => 16 * n + v) 0
  if n.isValidChar then some (Char.ofNat n) else none

/-- The character behind a backslash and what follows it. -/
def escape? : Text → Option (Char × Text)
  | 'b' :: t => some ('\x08', t)
  | 't' :: t => some ('\t', t)
  | 'n' :: t => some ('\n', t)
  | 'f' :: t => some ('\x0c', t)
  | 'r' :: t => some ('\r', t)
  | '"' :: t => some ('"', t)
  | '\\' :: t => some ('\\', t)
  | 'u' :: t => if 4 ≤ t.length then (codePoint? (t.take 4)).map (·, t.drop 4) else none
  | 'U' :: t => if 8 ≤ t.length then (codePoint? (t.take 8)).map (·, t.drop 8) else none
  | _ => none

def isPlain (c : Char) : Bool := c == '\t' || (0x20 ≤ c.toNat && c.toNat != 0x7F)

/-- A part of a string, and what follows it: a plain character, an escape, or a line break if the
string is long. A backslash at the end of a line joins what is before it to the next character that
is not blank. -/
def part? (mark : Char) (long : Bool) : Text → Option (Text × Text)
  | [] => none
  | c :: t =>
    if c = '\\' ∧ mark = '"' then
      match long, skipGap t with
      | true, '\n' :: rest => some ([], rest.dropWhile fun c => isGap c || c == '\n')
      | _, _ => (escape? t).map fun r => ([r.1], r.2)
    else if isPlain c ∨ (long ∧ c = '\n') then some ([c], t)
    else none

/-- How many marks the rest of the string has before the closing ones, if these come next. Up to
two more marks than needed belong to a long string. -/
def closing? (mark : Char) (long : Bool) (t : Text) : Option Nat :=
  let marks := (t.takeWhile (· = mark)).length
  let needed := if long then 3 else 1
  if marks < needed then none else some (if long then min (marks - needed) 2 else 0)

/-- The rest of a string up to its closing marks, with what follows. -/
def body? (mark : Char) (long : Bool) : (fuel : Nat) → Text → Option (Text × Text)
  | 0, _ => none
  | n + 1, t =>
    match closing? mark long t with
    | some extra => some (t.take extra, t.drop (extra + if long then 3 else 1))
    | none => do
      let (part, rest) ← part? mark long t
      let (body, rest) ← body? mark long n rest
      return (part ++ body, rest)

/-- Drops the line break right behind the opening marks of a long string. -/
def dropBreak : Text → Text
  | '\n' :: t => t
  | t => t

def shortString? : Text → Option (Text × Text)
  | c :: t => if c = '"' ∨ c = '\x27' then body? c false (t.length + 1) t else none
  | [] => none

def string? : Text → Option (Text × Text)
  | a :: b :: c :: t =>
    if (a = '"' ∨ a = '\x27') ∧ a = b ∧ b = c then body? a true (t.length + 1) (dropBreak t)
    else shortString? (a :: b :: c :: t)
  | t => shortString? t

end ChatCommand.Config.Toml
