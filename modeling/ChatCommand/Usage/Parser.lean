import ChatCommand.Usage.Basic

/-! # Reading patterns

At each place of a pattern the first token form that fits is taken, blanks between tokens are
skipped, and no flag or parameter may repeat a name.
-/

namespace ChatCommand.Usage

open Text

inductive PatternError where
  /-- No token starts at this byte of the pattern. -/
  | invalidCharacter (pattern : Text) (position : Nat)
  | duplicateKey (key : Text)
  deriving DecidableEq, Repr

def PatternError.message : PatternError → Text
  | invalidCharacter pattern position =>
    "invalid character at position ".toList ++ Nat.toDigits 10 position ++
      " in usage: '".toList ++ pattern ++ "'".toList
  | duplicateKey key => "duplicate key found: ".toList ++ key

def isWordChar (c : Char) : Bool :=
  ('a' ≤ c && c ≤ 'z') || ('0' ≤ c && c ≤ '9') || c == '-'

/-- Splits off the longest word, which must not be empty. -/
def word? (input : Text) : Option (Text × Text) :=
  match input.takeWhile isWordChar with
  | [] => none
  | c :: w => some (c :: w, input.dropWhile isWordChar)

theorem eq_of_word? {input w rest : Text} (h : word? input = some (w, rest)) :
    input = w ++ rest ∧ w ≠ [] := by
  unfold word? at h
  split at h
  · simp at h
  · next c w' hw =>
    obtain ⟨rfl, rfl⟩ : c :: w' = w ∧ input.dropWhile isWordChar = rest := by simpa using h
    exact ⟨by rw [← hw, List.takeWhile_append_dropWhile], by simp⟩

theorem length_of_word? {input w rest : Text} (h : word? input = some (w, rest)) :
    rest.length < input.length := by
  obtain ⟨rfl, hw⟩ := eq_of_word? h
  have := List.length_pos_iff.mpr hw
  simp
  omega

/-- Splits off further words, each behind a bar. A bar without a word ends them. -/
def alternatives (input : Text) : List Text × Text :=
  match input with
  | '|' :: input' =>
    match _ : word? input' with
    | some (w, rest) =>
      let more := alternatives rest
      (w :: more.1, more.2)
    | none => ([], input)
  | _ => ([], input)
termination_by input.length
decreasing_by
  have := length_of_word? ‹_›
  simp only [List.length_cons]
  omega

def words? (input : Text) : Option (List Text × Text) :=
  (word? input).map fun first =>
    let more := alternatives first.2
    (first.1 :: more.1, more.2)

theorem length_alternatives_le (input : Text) :
    (alternatives input).2.length ≤ input.length := by
  fun_induction alternatives input with
  | case1 input w rest h more ih =>
    exact Nat.le_succ_of_le (Nat.le_trans ih (Nat.le_of_lt (length_of_word? h)))
  | case2 => simp
  | case3 => simp

theorem length_of_words? {input rest : Text} {ws : List Text} (h : words? input = some (ws, rest)) :
    rest.length < input.length := by
  obtain ⟨first, hf, he⟩ := Option.map_eq_some_iff.mp h
  obtain ⟨-, rfl⟩ := Prod.mk.inj he
  exact Nat.lt_of_le_of_lt (length_alternatives_le _) (length_of_word? hf)

def dots : Text := ['.', '.', '.']

/-- Splits off what follows the opening bracket of a parameter: its name, perhaps dots, and the
closing bracket. -/
def param? (optional : Bool) (close : Char) (input : Text) : Option (Token × Text) :=
  (word? input).bind fun (name, tail) =>
    let (spread, tail) := match after? dots tail with
      | some tail => (true, tail)
      | none => (false, tail)
    match tail with
    | c :: rest => if c = close then some (.param name optional spread, rest) else none
    | [] => none

/-- The token at the start of the input and what follows it. -/
def token? : Text → Option (Token × Text)
  | '<' :: rest => param? false '>' rest
  | '[' :: rest => param? true ']' rest
  | '-' :: rest => (words? rest).map fun r => (.flag (['|'].intercalate r.1), r.2)
  | '.' :: '.' :: '.' :: rest => some (.ellipsis, rest)
  | input => (words? input).map fun r => (.literal r.1, r.2)

theorem length_of_param? {optional : Bool} {close : Char} {input rest : Text} {token : Token}
    (h : param? optional close input = some (token, rest)) : rest.length < input.length := by
  obtain ⟨⟨name, tail⟩, hw, h⟩ := Option.bind_eq_some_iff.mp h
  have hlt := length_of_word? hw
  cases hd : after? dots tail with
  | some tail' =>
    have hle := congrArg List.length (after?_eq_some_iff.mp hd)
    rw [List.length_append] at hle
    cases tail' with
    | nil => simp [hd] at h
    | cons c r =>
      simp only [hd, Option.ite_none_right_eq_some, Option.some.injEq, Prod.mk.injEq] at h
      obtain ⟨-, -, rfl⟩ := h
      simp only [List.length_cons] at hle
      omega
  | none =>
    cases tail with
    | nil => simp [hd] at h
    | cons c r =>
      simp only [hd, Option.ite_none_right_eq_some, Option.some.injEq, Prod.mk.injEq] at h
      obtain ⟨-, -, rfl⟩ := h
      simp only [List.length_cons] at hlt
      omega

theorem length_of_token? {input rest : Text} {token : Token}
    (h : token? input = some (token, rest)) : rest.length < input.length := by
  unfold token? at h
  split at h
  · exact Nat.lt_succ_of_lt (length_of_param? h)
  · exact Nat.lt_succ_of_lt (length_of_param? h)
  · obtain ⟨r, hr, he⟩ := Option.map_eq_some_iff.mp h
    obtain ⟨-, rfl⟩ := Prod.mk.inj he
    exact Nat.lt_succ_of_lt (length_of_words? hr)
  · obtain ⟨-, rfl⟩ := Prod.mk.inj (Option.some.inj h)
    simp only [List.length_cons]
    omega
  · obtain ⟨r, hr, he⟩ := Option.map_eq_some_iff.mp h
    obtain ⟨-, rfl⟩ := Prod.mk.inj he
    exact length_of_words? hr

/-- What stops the reading of a pattern: text at which no token starts, or a repeated name. -/
inductive Stop where
  | unreadable (rest : Text)
  | repeated (key : Text)
  deriving DecidableEq, Repr

/-- The tokens of the input, whose names differ from each other and from those in `seen`. -/
def scan (seen : List Text) (input : Text) : Except Stop (List Token) :=
  match input with
  | [] => .ok []
  | c :: rest =>
    if isBlank c then scan seen rest
    else match _ : token? (c :: rest) with
      | none => .error (.unreadable (c :: rest))
      | some (token, rest') =>
        match token.key? with
        | some key =>
          if key ∈ seen then .error (.repeated key)
          else (token :: ·) <$> scan (key :: seen) rest'
        | none => (token :: ·) <$> scan seen rest'
termination_by input.length
decreasing_by
  · simp
  · exact length_of_token? ‹_›
  · exact length_of_token? ‹_›

def ofPattern (pattern : Text) : Except PatternError Usage :=
  match scan [] pattern with
  | .ok tokens => .ok ⟨pattern, tokens⟩
  | .error (.unreadable rest) =>
    .error (.invalidCharacter pattern (utf8Size pattern - utf8Size rest))
  | .error (.repeated key) => .error (.duplicateKey key)

end ChatCommand.Usage
