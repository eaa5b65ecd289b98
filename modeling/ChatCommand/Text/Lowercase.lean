import ChatCommand.Text.Basic
import ChatCommand.Text.CaseTable

/-! # Lowercase

Every character is mapped on its own, except that a capital sigma which ends a word becomes the
final sigma. Which characters count as part of the word is read off `isCased` and
`isCaseIgnorable`.
-/

namespace ChatCommand.Text

def inRanges (ranges : List (Nat × Nat)) (c : Char) : Bool :=
  ranges.any fun r => r.1 ≤ c.toNat && c.toNat ≤ r.2

def isCased (c : Char) : Bool := inRanges casedRanges c

def isCaseIgnorable (c : Char) : Bool := inRanges caseIgnorableRanges c

/-- The lowercase form out of context. Only the dotted capital I has two characters. -/
def lowerChar (c : Char) : Text :=
  if c = 'İ' then ['i', '\u0307']
  else match lowercaseRuns.findSome? (·.lower? c.toNat) with
    | some n => [Char.ofNat n]
    | none => [c]

/-- Whether a cased letter comes next, looking through case-ignorable characters. -/
def startsCased (t : Text) : Bool :=
  match t.dropWhile isCaseIgnorable with
  | [] => false
  | c :: _ => isCased c

/-- The lowercase of a text whose preceding characters are `before`, nearest first. -/
def lowerAfter (before : Text) : Text → Text
  | [] => []
  | c :: rest =>
    (if c = 'Σ' then [if startsCased before && !startsCased rest then 'ς' else 'σ']
      else lowerChar c) ++ lowerAfter (c :: before) rest

def lowercase (t : Text) : Text := lowerAfter [] t

@[simp] theorem lowercase_nil : lowercase [] = [] := rfl

example : lowercase "ΟΔΟΣ ΣΑΣ Σ".toList = "οδος σας σ".toList := by decide +kernel

example : lowercase "İ-ẞ-Ǆ".toList = "i̇-ß-ǆ".toList := by decide +kernel

end ChatCommand.Text
