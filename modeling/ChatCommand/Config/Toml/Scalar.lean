import ChatCommand.Config.Toml.Layout
import ChatCommand.Config.Value
import ChatCommand.Number.Decimal

/-! # Booleans, numbers and dates of TOML

No setting is a number or a date. A number has to be well-formed and in range and is then dropped; a
date reads as an empty table.
-/

namespace ChatCommand.Config.Toml

open Decimal

/-- Splits off digits that stand alone or in groups joined by single underscores. -/
def digits? (isDigit : Char → Bool) (t : Text) : Option (Text × Text) :=
  let run := t.takeWhile fun c => isDigit c || c == '_'
  if (Text.splitOn '_' run).any (·.isEmpty) then none
  else some (run.filter (· != '_'), t.drop run.length)

/-- Splits off the digits of a whole number, which has no leading zeros. -/
def whole? (t : Text) : Option (Text × Text) :=
  match t, digits? isDigit t with
  | '0' :: _, some (['0'], rest) => some (['0'], rest)
  | '0' :: _, _ => none
  | _, r => r

def isInteger (word : Text) : Bool :=
  let (negative, t) := splitSign word
  match whole? t with
  | some (digits, []) => ofDigits digits < Nat.pow 2 63 + if negative then 1 else 0
  | _ => false

/-- Whether the word is a number of 63 bits in a notation without signs. -/
def isUnsigned (base : Nat) (word : Text) : Bool :=
  match digits? (fun c => (hexValue? c).any (· < base)) word with
  | some (digits, []) => digits.foldl (fun n c => base * n + (hexValue? c).getD 0) 0 < Nat.pow 2 63
  | _ => false

/-- The exponent that starts at a mark behind digits, and what follows. A plus sign ends a word, so
that the digits behind it are a word of their own. -/
def exponent? (suffix t : Text) : Option (Int × Text) :=
  match suffix with
  | [] => some (0, t)
  | [_] => do
    let (word, rest) ← word? ((Text.after? ['+'] t).getD t)
    match ← digits? isDigit word with
    | (digits, []) => some (ofDigits digits, rest)
    | _ => none
  | _ :: word => do
    let (negative, word) := splitSign word
    match ← digits? isDigit word with
    | (digits, []) => some (if negative then -ofDigits digits else ofDigits digits, t)
    | _ => none

/-- Reads on behind the first word of a number with a fraction or an exponent, which must be
finite. -/
def float? (word : Text) (fraction : Option Text) (t : Text) : Option Text := do
  let (digits, suffix) ← whole? (splitSign word).2
  let (more, suffix) ← match fraction with
    | none => some ([], suffix)
    | some word => if suffix = [] then digits? isDigit word else none
  if ¬ suffix.head?.all (fun c => c == 'e' || c == 'E') then none
  else
    let (exponent, rest) ← exponent? suffix t
    let _ ← Decimal.round? ⟨false, ofDigits (digits ++ more), exponent - more.length⟩
    return rest

def number? (word t : Text) : Option Text :=
  match word with
  | '0' :: 'x' :: digits => if isUnsigned 16 digits then some t else none
  | '0' :: 'o' :: digits => if isUnsigned 8 digits then some t else none
  | '0' :: 'b' :: digits => if isUnsigned 2 digits then some t else none
  | _ =>
    if word.any (fun c => c == 'e' || c == 'E') then float? word none t
    else match t with
      | '.' :: t => do
        let (fraction, rest) ← word? t
        float? word (some fraction) rest
      | _ =>
        if word ∈ ["inf".toList, "-inf".toList, "nan".toList, "-nan".toList] ∨ isInteger word then
          some t
        else none

def startsDate (word : Text) : Bool :=
  word.any (fun c => c == 't' || c == 'T') ||
    ((word.drop 1).contains '-' &&
      ¬ (word.zip (word.drop 1)).any fun p => (p.1 == 'e' || p.1 == 'E') && p.2 == '-')

def skipMarked? (mark : Char) (t : Text) : Option Text :=
  match Text.after? [mark] t with
  | some rest => (word? rest).map (·.2)
  | none => some t

/-- Reads on behind the colon that follows the hours of a time. -/
def minutes? (t : Text) : Option Text := do
  let (_, t) ← word? t
  let (_, t) ← word? (← Text.after? [':'] t)
  skipMarked? ':' (← skipMarked? '+' (← skipMarked? '.' t))

/-- Skips the hours of a time that a single space joins to a date. -/
def skipHours (t : Text) : Text :=
  match t with
  | ' ' :: rest => ((word? rest).map (·.2)).getD t
  | _ => t

/-- Reads on behind the first word of a date or a time. Its parts may be any words. -/
def date? (t : Text) : Option Text :=
  match skipHours t with
  | ':' :: rest => minutes? rest
  | rest => some rest

def numberOrDate? (word t : Text) : Option (Value × Text) :=
  if startsDate word then (date? t).map (.table [], ·)
  else match t with
    | ':' :: rest => (minutes? (skipHours rest)).map (.table [], ·)
    | _ => (number? word t).map (.number, ·)

def scalar? (t : Text) : Option (Value × Text) :=
  match Text.after? ['+'] t with
  | some t => do
    let (word, rest) ← word? t
    (number? word rest).map (.number, ·)
  | none => do
    let (word, rest) ← word? t
    if word = "true".toList then some (.bool true, rest)
    else if word = "false".toList then some (.bool false, rest)
    else if word ∈ ["inf".toList, "nan".toList] ∨ word.head?.any fun c => c == '-' || isDigit c
    then numberOrDate? word rest
    else none

end ChatCommand.Config.Toml
