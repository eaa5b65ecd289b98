import ChatCommand.Config.Toml.Scalar
import ChatCommand.Config.Toml.Section

/-! # TOML documents

Reads a document of keys and values, in tables and lists of tables, into one table.
-/

namespace ChatCommand.Config.Toml

/-- A part of a key: a word, or a string on a single line. -/
def keyPart? (t : Text) : Option (Text × Text) :=
  match word? t with
  | some r => some r
  | none => shortString? t

/-- A key of one or more parts with points between them, and what follows the gap behind it. -/
def key? : (fuel : Nat) → Text → Option (List Text × Text)
  | 0, _ => none
  | n + 1, t => do
    let (part, rest) ← keyPart? (skipGap t)
    match skipGap rest with
    | '.' :: rest =>
      let (parts, rest) ← key? n rest
      return (part :: parts, rest)
    | rest => return ([part], rest)

mutual

def value? : (fuel : Nat) → Text → Option (Value × Text)
  | 0, _ => none
  | n + 1, t =>
    match t with
    | '[' :: rest => (elements? n (skipLines rest)).map fun r => (.list r.1, r.2)
    | '\x7b' :: rest =>
      match skipGap rest with
      | '\x7d' :: rest => some (.inline [], rest)
      | rest => (members? n [] rest).map fun r => (.inline (Item.entries r.1), r.2)
    | '"' :: _ => (string? t).map fun r => (.text r.1, r.2)
    | '\x27' :: _ => (string? t).map fun r => (.text r.1, r.2)
    | _ => scalar? t

/-- The elements of a list up to its closing bracket, which a comma may precede. -/
def elements? : (fuel : Nat) → Text → Option (List Value × Text)
  | 0, _ => none
  | n + 1, t =>
    match t with
    | ']' :: rest => some ([], rest)
    | _ => do
      let (v, rest) ← value? n t
      match skipLines rest with
      | ']' :: rest => return ([v], rest)
      | ',' :: rest =>
        let (vs, rest) ← elements? n (skipLines rest)
        return (v :: vs, rest)
      | _ => none

/-- The members of a table on a single line up to its closing brace, added to those before. -/
def members? : (fuel : Nat) → List (Text × Item) → Text → Option (List (Text × Item) × Text)
  | 0, _, _ => none
  | n + 1, items, t => do
    let (items, rest) ← member? n items t
    match skipGap rest with
    | '\x7d' :: rest => return (items, rest)
    | ',' :: rest => members? n items rest
    | _ => none

def member? : (fuel : Nat) → List (Text × Item) → Text → Option (List (Text × Item) × Text)
  | 0, _, _ => none
  | n + 1, items, t => do
    let (key, rest) ← key? (t.length + 1) t
    let (v, rest) ← value? n (skipGap (← Text.after? ['='] rest))
    return (← Item.add v key items, rest)

end

def header? : Text → Option (Section × Text)
  | '[' :: '[' :: t => do
    let (path, rest) ← key? (t.length + 1) t
    return (⟨path, true, []⟩, ← endLine? (← Text.after? [']', ']'] rest))
  | '[' :: t => do
    let (path, rest) ← key? (t.length + 1) t
    return (⟨path, false, []⟩, ← endLine? (← Text.after? [']'] rest))
  | _ => none

def sections? : (fuel : Nat) → Section → Text → Option (List Section)
  | 0, _, _ => none
  | n + 1, s, t =>
    match skipLines t with
    | [] => some [s]
    | '[' :: rest => do
      let (next, rest) ← header? ('[' :: rest)
      return s :: (← sections? n next rest)
    | t => do
      let (items, rest) ← member? (2 * t.length + 2) s.items t
      sections? n { s with items } (← endLine? rest)

/-- The table that a document spells, if it is well-formed. A byte order mark may precede it. -/
def parse? (document : Text) : Option Value := do
  let t := foldLineEnds ((Text.after? ['\uFEFF'] document).getD document)
  Section.document (← sections? (t.length + 1) ⟨[], false, []⟩ t)

end ChatCommand.Config.Toml
