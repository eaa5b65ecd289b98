import Mathlib.Logic.Function.Iterate
import ChatCommand.Matching.Attempt
import ChatCommand.Proofs.Line.Words

/-! # How far a cursor lags behind

A consumed item takes as many bytes off the text as it has, whatever they are. A character that
belongs to no word therefore makes the text lag behind the items. The lag in front of each word is
read off the pieces of the line alone. It never becomes negative, and a word makes up for it exactly
when the lag is smaller than the last character of the word.
-/

namespace ChatCommand

open Text

def Text.lastSize (t : Text) : Nat := (t.getLast?.map Char.utf8Size).getD 0

theorem Text.Tight.lastSize_pos {t : Text} (h : t.Tight) : 0 < t.lastSize := by
  obtain ⟨l, d, rfl, -⟩ := h.last
  simpa [lastSize] using d.utf8Size_pos

namespace Cursor

theorem dropBytes_append_of_le {n : Nat} {s : Text} (t : Text) (h : utf8Size s ≤ n) :
    dropBytes n (s ++ t) = dropBytes (n - utf8Size s) t := by
  induction s generalizing n with
  | nil => simp
  | cons c s ih =>
    have hc := c.utf8Size_pos
    rw [utf8Size_cons] at h
    obtain ⟨m, rfl⟩ : ∃ m, n = m + 1 := ⟨n - 1, by omega⟩
    rw [List.cons_append, dropBytes, ih (by omega), utf8Size_cons]
    congr 1
    omega

theorem dropBytes_append {n : Nat} {s : Text} (t : Text) (h : n ≤ utf8Size s) :
    dropBytes n (s ++ t) = dropBytes n s ++ t := by
  induction s generalizing n with
  | nil =>
    obtain rfl : n = 0 := Nat.le_zero.mp h
    simp [dropBytes]
  | cons c s ih =>
    cases n with
    | zero => simp [dropBytes]
    | succ n =>
      rw [List.cons_append, dropBytes]
      exact ih (by simp at h; omega)

theorem dropBytes_concat {n : Nat} {s : Text} (d : Char) :
    dropBytes n (s ++ [d]) = if utf8Size s < n then [] else dropBytes n s ++ [d] := by
  split
  · next h =>
    obtain ⟨m, hm⟩ : ∃ m, n - utf8Size s = m + 1 := ⟨n - utf8Size s - 1, by omega⟩
    rw [dropBytes_append_of_le _ (by omega), hm, dropBytes]
    cases m + 1 - d.utf8Size <;> rfl
  · next h => exact dropBytes_append _ (by omega)

theorem skip_append {n : Nat} {s : Text} (t : Text) (h : n ≤ utf8Size s) :
    skip n (s ++ t) = trimStart (skip n s ++ t) := by
  simp [skip, dropBytes_append t h]

theorem skip_append_word (lag w t : Text) :
    skip (utf8Size w) (lag ++ w ++ t) = trimStart (skip (utf8Size w) (lag ++ w) ++ t) :=
  skip_append t (by simp)

/-- What is left behind a word when the text still held `lag` in front of it. -/
theorem skip_word (lag : Text) {w : Text} (t : Text) (hw : w.Tight) :
    ∃ l d, w = l ++ [d] ∧ d.utf8Size = w.lastSize ∧
      skip (utf8Size w) (lag ++ w ++ t) =
        if utf8Size lag < d.utf8Size then trimStart t
        else skip (utf8Size w) (lag ++ l) ++ d :: t := by
  obtain ⟨l, d, rfl, hd⟩ := hw.last
  refine ⟨l, d, rfl, by simp [lastSize], ?_⟩
  -- the word makes up for the lag if dropping its bytes reaches into its last character
  have hs : utf8Size (lag ++ l) < utf8Size (l ++ [d]) ↔ utf8Size lag < d.utf8Size := by
    simp only [utf8Size_append, utf8Size_cons, utf8Size_nil]
    omega
  rw [skip, dropBytes_append t (by simp), ← List.append_assoc lag l [d], dropBytes_concat]
  simp only [hs]
  split
  · simp
  · simpa [skip] using trimStart_append_cons (dropBytes (utf8Size (l ++ [d])) (lag ++ l)) t hd

theorem skip_word_eq_trimStart_iff (lag : Text) {w : Text} (t : Text) (hw : w.Tight) :
    skip (utf8Size w) (lag ++ w ++ t) = trimStart t ↔ utf8Size lag < w.lastSize := by
  obtain ⟨l, d, -, hd, he⟩ := skip_word lag t hw
  rw [he, ← hd]
  split
  · next h => simp [h]
  · next h =>
    simp only [h, iff_false]
    intro he
    have hlt := congrArg List.length he
    have hle := (trimStart_suffix t).length_le
    simp only [List.length_append, List.length_cons] at hlt
    omega

end Cursor

namespace Piece

open Cursor

/-- The text that a cursor still holds in front of each word and in front of the end, if it holds
`lag` in front of the first piece. -/
def lags : Text → List Piece → List Text
  | lag, [] => [lag]
  | lag, p :: ps =>
    match p.item? with
    | some w => lag :: lags (skip (utf8Size w) (lag ++ w)) ps
    | none => lags (trimStart (lag ++ p.text)) ps

@[simp] theorem lags_nil (lag : Text) : lags lag [] = [lag] := rfl

theorem lags_cons_word {p : Piece} {w : Text} (h : p.item? = some w) (lag : Text)
    (ps : List Piece) :
    lags lag (p :: ps) = lag :: lags (skip (utf8Size w) (lag ++ w)) ps := by
  simp [lags, h]

theorem lags_cons_gap (c : Char) (lag : Text) (ps : List Piece) :
    lags lag (gap c :: ps) = lags (trimStart (lag ++ [c])) ps := rfl

theorem length_lags (lag : Text) (ps : List Piece) :
    (lags lag ps).length = (words ps).length + 1 := by
  induction ps generalizing lag with
  | nil => rfl
  | cons p ps ih =>
    cases h : p.item? with
    | none =>
      obtain ⟨c, rfl⟩ := eq_gap_of_item? h
      exact ih _
    | some w => simp [lags_cons_word h, words_cons_word h, ih]

/-- After `k` items the text is the lag in front of the next word and the line from there on. -/
theorem iterate_advance {ps : List Piece} (hp : ∀ w ∈ items ps, w.Tight) {lag l : Text}
    (hl : trimStart lag = lag) {k : Nat} (hk : (lags lag ps)[k]? = some l) :
    advance^[k] ⟨items ps, trimStart (lag ++ spell ps)⟩ =
      ⟨((words ps).drop k).map Word.text, l ++ Word.lineFrom ((words ps).drop k)⟩ := by
  induction ps generalizing lag k with
  | nil =>
    cases k with
    | zero => simp_all [items]
    | succ k => simp at hk
  | cons p ps ih =>
    cases hi : p.item? with
    | none =>
      obtain ⟨c, rfl⟩ := eq_gap_of_item? hi
      rw [lags_cons_gap] at hk
      rw [words_cons_gap, ← ih hp (trimStart_trimStart _) hk, items_cons_gap]
      simp [text]
    | some w =>
      rw [items_cons_word hi] at hp ⊢
      obtain ⟨hw, hps⟩ := List.forall_mem_cons.mp hp
      have ht : trimStart (lag ++ spell (p :: ps)) = lag ++ w ++ spell ps := by
        rw [spell_cons, text_of_item? hi, ← List.append_assoc, hw.trimStart_append, hl]
      rw [lags_cons_word hi] at hk
      rw [ht, words_cons_word hi]
      cases k with
      | zero =>
        obtain rfl : lag = l := by simpa using hk
        simp [Word.onward, items_eq_map_words]
      | succ k =>
        rw [List.getElem?_cons_succ] at hk
        rw [Function.iterate_succ_apply, List.drop_succ_cons, ← ih hps (by simp [skip]) hk,
          ← skip_append_word]
        rfl

end Piece

namespace Line

open Piece Cursor

def lags (line : Text) : List Text := Piece.lags [] (argumentPieces line)

theorem length_lags (line : Text) : (lags line).length = (arguments line).length + 1 :=
  Piece.length_lags [] _

theorem exists_lag {line : Text} {k : Nat} (hk : k ≤ (arguments line).length) :
    ∃ lag, (lags line)[k]? = some lag := by
  have hlt : k < (lags line).length := by
    rw [length_lags]
    omega
  exact ⟨_, List.getElem?_eq_getElem hlt⟩

theorem iterate_advance {line l : Text} {inv : Invocation} (h : Invocation.ofLine? line = some inv)
    {k : Nat} (hk : (lags line)[k]? = some l) :
    advance^[k] ⟨inv.items, inv.text⟩ =
      ⟨((arguments line).drop k).map Word.text, l ++ Word.lineFrom ((arguments line).drop k)⟩ := by
  rw [Invocation.items_eq h, Invocation.text_eq h, arguments, ← items_eq_map_words]
  exact Piece.iterate_advance (fun _ => tight_of_mem_items) rfl hk

end Line

end ChatCommand
