import ChatCommand.Text.Basic

/-! # Quoted text

A quoted text stands between double quotes and escapes a quote or a backslash by a backslash.
Main statement: `unquote` undoes `quote`.
-/

namespace ChatCommand.Text

def escape : Text → Text
  | [] => []
  | c :: t => if c = '"' ∨ c = '\\' then '\\' :: c :: escape t else c :: escape t

def quote (t : Text) : Text := '"' :: escape t ++ ['"']

/-- Drops the backslash of every escaped quote or backslash. -/
def unescape : Text → Text
  | [] => []
  | [c] => [c]
  | c :: d :: t =>
    if c = '\\' ∧ (d = '\\' ∨ d = '"') then d :: unescape t else c :: unescape (d :: t)

/-- A text that starts and ends with a quote loses both and is unescaped; any other is kept. -/
def unquote (t : Text) : Text :=
  if t.head? = some '"' ∧ t.getLast? = some '"' then unescape t.tail.dropLast else t

theorem unescape_cons {c : Char} {t : Text} (h : c ≠ '\\') :
    unescape (c :: t) = c :: unescape t := by
  cases t <;> simp [unescape, h]

theorem unescape_escape (t : Text) : unescape (escape t) = t := by
  induction t with
  | nil => rfl
  | cons c t ih =>
    by_cases h : c = '"' ∨ c = '\\'
    · simp [escape, h, unescape, h.symm, ih]
    · rw [escape, if_neg h, unescape_cons (by simp_all), ih]

theorem unquote_quote (t : Text) : unquote (quote t) = t := by
  have h : ('"' :: escape t ++ ['"']).getLast? = some '"' := List.getLast?_concat
  rw [unquote, if_pos ⟨rfl, h⟩, quote, List.cons_append, List.tail_cons, List.dropLast_concat,
    unescape_escape]

end ChatCommand.Text
