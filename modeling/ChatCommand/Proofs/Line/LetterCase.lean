import ChatCommand.Proofs.Line.Words
import ChatCommand.Proofs.Text.LetterCase

/-! # Lines up to the case of letters

Lines that differ in the case of letters only have the same pieces, up to the case of letters. So
they invoke a command both or neither, with arguments at the same bytes.
-/

namespace ChatCommand

open Text

namespace Piece

def foldCase : Piece → Piece
  | bare word => bare (Text.foldCase word)
  | quoted word => quoted (Text.foldCase word)
  | gap c => gap c.toLower

theorem text_foldCase (p : Piece) : p.foldCase.text = Text.foldCase p.text := by
  cases p <;> rfl

theorem item?_foldCase (p : Piece) : p.foldCase.item? = p.item?.map Text.foldCase := by
  cases p <;> rfl

theorem spell_map_foldCase (ps : List Piece) :
    spell (ps.map foldCase) = Text.foldCase (spell ps) := by
  induction ps with
  | nil => rfl
  | cons p ps ih => rw [List.map_cons, spell_cons, spell_cons, text_foldCase, ih, foldCase_append]

theorem afterWord_map_foldCase (ps : List Piece) :
    afterWord (ps.map foldCase) = (afterWord ps).map foldCase := by
  fun_induction afterWord ps with
  | case1 => rfl
  | case2 c ps ih => exact ih
  | case3 => rfl
  | case4 => rfl

end Piece

namespace Word

def foldCase (w : Word) : Word := ⟨Text.foldCase w.text, Text.foldCase w.behind⟩

def place (line : Text) (w : Word) : Nat × Nat :=
  (utf8Size line - utf8Size w.onward, utf8Size line - utf8Size w.behind)

theorem onward_foldCase (w : Word) : w.foldCase.onward = Text.foldCase w.onward :=
  (foldCase_append _ _).symm

theorem place_foldCase (line : Text) (w : Word) :
    w.foldCase.place (Text.foldCase line) = w.place line := by
  rw [place, place, onward_foldCase, utf8Size_foldCase, utf8Size_foldCase, foldCase,
    utf8Size_foldCase]

end Word

theorem Piece.words_map_foldCase (ps : List Piece) :
    words (ps.map foldCase) = (words ps).map Word.foldCase := by
  induction ps with
  | nil => rfl
  | cons p ps ih =>
    rw [List.map_cons]
    cases h : p.item? with
    | none =>
      obtain ⟨c, rfl⟩ := eq_gap_of_item? h
      exact ih
    | some w =>
      have hf : p.foldCase.item? = some (Text.foldCase w) := by
        rw [item?_foldCase, h, Option.map_some]
      rw [words_cons_word h, words_cons_word hf, ih, spell_map_foldCase, List.map_cons]
      rfl

namespace Line

theorem isBare_toLower (c : Char) : isBare c.toLower = isBare c :=
  apply_toLower isBare (by decide) c

theorem toLower_eq_quote_iff {c : Char} : c.toLower = '"' ↔ c = '"' :=
  toLower_eq_iff (by decide) (by decide)

theorem toLower_eq_backslash_iff {c : Char} : c.toLower = '\\' ↔ c = '\\' :=
  toLower_eq_iff (by decide) (by decide)

theorem closing?_foldCase (t : Text) :
    closing? (foldCase t) = (closing? t).map fun r => (foldCase r.1, foldCase r.2) := by
  fun_induction closing? t with
  | case1 => rfl
  | case2 => rfl
  | case3 c hc => simp [closing?, toLower_eq_quote_iff, hc]
  | case4 d rest => rfl
  | case5 d rest hd hn ih =>
    have hd' : d.toLower = '"' ∨ d.toLower = '\\' := by
      rwa [toLower_eq_quote_iff, toLower_eq_backslash_iff]
    have hb : '\\'.toLower = '\\' := rfl
    simp [closing?, hb, hd', ih, Function.comp_def]
  | case6 d rest hd hn =>
    have hd' : ¬ (d.toLower = '"' ∨ d.toLower = '\\') := by
      rwa [toLower_eq_quote_iff, toLower_eq_backslash_iff]
    have hb : '\\'.toLower = '\\' := rfl
    simp [closing?, hb, hd']
  | case7 c d rest hc hb ih =>
    rw [foldCase_cons] at ih
    simp [closing?, toLower_eq_quote_iff, toLower_eq_backslash_iff, hc, hb, ih, Function.comp_def]

theorem scan_foldCase (line : Text) : scan (foldCase line) = (scan line).map Piece.foldCase := by
  fun_induction scan line with
  | case1 => simp [scan]
  | case2 c rest hc ih =>
    rw [foldCase_cons, scan, isBare_toLower, if_pos hc, takeWhile_foldCase isBare_toLower,
      dropWhile_foldCase isBare_toLower, ih]
    rfl
  | case3 rest body rest' hc _ ih =>
    have hq : scan (foldCase ('"' :: rest)) = scan ('"' :: foldCase rest) := rfl
    rw [hq, scan_quote, closing?_foldCase, hc, Option.map_some]
    simp only [ih, List.map_cons]
    rfl
  | case4 rest hc _ ih =>
    have hq : scan (foldCase ('"' :: rest)) = scan ('"' :: foldCase rest) := rfl
    rw [hq, scan_quote, closing?_foldCase, hc, Option.map_none]
    simp only [ih, List.map_cons]
    rfl
  | case5 c rest hc hq ih =>
    rw [foldCase_cons, scan, isBare_toLower, if_neg hc, if_neg (mt toLower_eq_quote_iff.mp hq), ih]
    rfl

end Line

namespace Invocation

def foldCase (inv : Invocation) : Invocation :=
  ⟨Text.foldCase inv.name, inv.items.map Text.foldCase, Text.foldCase inv.text⟩

theorem ofPieces?_map_foldCase (ps : List Piece) :
    ofPieces? (ps.map Piece.foldCase) = (ofPieces? ps).map foldCase := by
  fun_induction ofPieces? ps with
  | case1 => rfl
  | case2 name rest =>
    have hi : Piece.items (rest.map Piece.foldCase) = (Piece.items rest).map Text.foldCase := by
      simp only [Piece.items, List.filterMap_map, List.map_filterMap]
      exact congrArg (List.filterMap · rest) (funext Piece.item?_foldCase)
    rw [List.map_cons, Piece.foldCase, ofPieces?, hi, Piece.spell_map_foldCase, trimStart_foldCase]
    rfl
  | case3 => rfl
  | case4 c rest ih => exact ih

theorem ofLine?_foldCase (line : Text) :
    ofLine? (Text.foldCase line) = (ofLine? line).map foldCase := by
  rw [ofLine?, Line.scan_foldCase, ofPieces?_map_foldCase, ofLine?]

end Invocation

namespace Line

theorem arguments_foldCase (line : Text) :
    arguments (foldCase line) = (arguments line).map Word.foldCase := by
  rw [arguments, argumentPieces, scan_foldCase, Piece.afterWord_map_foldCase,
    Piece.words_map_foldCase]
  rfl

theorem places_foldCase (line : Text) :
    (arguments (foldCase line)).map (Word.place (foldCase line)) =
      (arguments line).map (Word.place line) := by
  rw [arguments_foldCase, List.map_map]
  exact congrArg (List.map · (arguments line)) (funext (Word.place_foldCase line))

end Line

namespace Text.SameLetters

variable {line line' : Text}

theorem ofLine?_eq (h : SameLetters line line') :
    (Invocation.ofLine? line).map Invocation.foldCase =
      (Invocation.ofLine? line').map Invocation.foldCase := by
  rw [← Invocation.ofLine?_foldCase, h, Invocation.ofLine?_foldCase]

theorem places_eq (h : SameLetters line line') :
    (Line.arguments line).map (Word.place line) =
      (Line.arguments line').map (Word.place line') := by
  rw [← Line.places_foldCase, h, Line.places_foldCase]

end Text.SameLetters

end ChatCommand
