import ChatCommand.Line
import ChatCommand.Proofs.Text.Spacing

/-! # Words of a line

Each word of a line is kept with all that follows it, so that the line from a word on can be named
without counting bytes. The items of an invocation are the words behind its name, and none of them
starts or ends with a blank.
-/

namespace ChatCommand

/-- A word of a line, still quoted and escaped, and what follows it. -/
structure Word where
  text : Text
  behind : Text
  deriving DecidableEq, Repr

namespace Word

def onward (w : Word) : Text := w.text ++ w.behind

def lineFrom (ws : List Word) : Text := (ws.head?.map onward).getD []

@[simp] theorem lineFrom_nil : lineFrom [] = [] := rfl

@[simp] theorem lineFrom_cons (w : Word) (ws : List Word) : lineFrom (w :: ws) = w.onward := rfl

end Word

namespace Piece

theorem text_of_item? {p : Piece} {w : Text} (h : p.item? = some w) : p.text = w := by
  cases p <;> simp_all [item?, text]

theorem eq_gap_of_item? {p : Piece} (h : p.item? = none) : ∃ c, p = gap c := by
  cases p <;> simp_all [item?]

theorem items_cons_word {p : Piece} {w : Text} (h : p.item? = some w) (ps : List Piece) :
    items (p :: ps) = w :: items ps := by
  simp [items, h]

theorem items_cons_gap (c : Char) (ps : List Piece) : items (gap c :: ps) = items ps := rfl

def gaps (ps : List Piece) : Text := ps.filterMap fun
  | gap c => some c
  | _ => none

theorem gaps_cons_word {p : Piece} {w : Text} (h : p.item? = some w) (ps : List Piece) :
    gaps (p :: ps) = gaps ps := by
  cases p with
  | bare => rfl
  | quoted => rfl
  | gap => simp [item?] at h

theorem gaps_cons_gap (c : Char) (ps : List Piece) : gaps (gap c :: ps) = c :: gaps ps := rfl

theorem countP_spell (f : Char → Bool) (ps : List Piece) :
    (spell ps).countP f = (items ps).flatten.countP f + (gaps ps).countP f := by
  induction ps with
  | nil => rfl
  | cons p ps ih =>
    rw [spell_cons, List.countP_append, ih]
    cases h : p.item? with
    | none =>
      obtain ⟨c, rfl⟩ := eq_gap_of_item? h
      rw [items_cons_gap, gaps_cons_gap, List.countP_cons, text, List.countP_singleton]
      omega
    | some w =>
      rw [items_cons_word h, gaps_cons_word h, text_of_item? h, List.flatten_cons,
        List.countP_append]
      omega

def words : List Piece → List Word
  | [] => []
  | p :: ps =>
    match p.item? with
    | some w => ⟨w, spell ps⟩ :: words ps
    | none => words ps

@[simp] theorem words_nil : words [] = [] := rfl

theorem words_cons_word {p : Piece} {w : Text} (h : p.item? = some w) (ps : List Piece) :
    words (p :: ps) = ⟨w, spell ps⟩ :: words ps := by
  simp [words, h]

theorem words_cons_gap (c : Char) (ps : List Piece) : words (gap c :: ps) = words ps := rfl

theorem items_eq_map_words (ps : List Piece) : items ps = (words ps).map Word.text := by
  induction ps with
  | nil => rfl
  | cons p ps ih =>
    cases h : p.item? with
    | none =>
      obtain ⟨c, rfl⟩ := eq_gap_of_item? h
      rw [items_cons_gap, words_cons_gap, ih]
    | some w => rw [items_cons_word h, words_cons_word h, ih, List.map_cons]

theorem onward_suffix_spell {ps : List Piece} {w : Word} (h : w ∈ words ps) :
    w.onward <:+ spell ps := by
  induction ps with
  | nil => simp at h
  | cons p ps ih =>
    have hp : spell ps <:+ spell (p :: ps) := by simp
    cases hi : p.item? with
    | none =>
      obtain ⟨c, rfl⟩ := eq_gap_of_item? hi
      exact (ih h).trans hp
    | some v =>
      rw [words_cons_word hi] at h
      rcases List.mem_cons.mp h with rfl | h
      · simp [Word.onward, text_of_item? hi]
      · exact (ih h).trans hp

def afterWord : List Piece → List Piece
  | [] => []
  | gap _ :: ps => afterWord ps
  | bare _ :: ps => ps
  | quoted _ :: ps => ps

theorem afterWord_suffix (ps : List Piece) : afterWord ps <:+ ps := by
  fun_induction afterWord ps with
  | case1 => exact List.suffix_refl _
  | case2 c ps ih => exact ih.trans (List.suffix_cons _ _)
  | case3 => exact List.suffix_cons _ _
  | case4 => exact List.suffix_cons _ _

theorem spell_suffix {ps qs : List Piece} (h : ps <:+ qs) : spell ps <:+ spell qs := by
  obtain ⟨rs, rfl⟩ := h
  exact ⟨spell rs, by simp [spell]⟩

end Piece

namespace Line

open Piece Text

theorem scan_quote (rest : Text) : scan ('"' :: rest) = match closing? rest with
    | some (body, rest') => .quoted ('"' :: body) :: scan rest'
    | none => .gap '"' :: scan rest := by
  rw [scan, if_neg (by decide), if_pos rfl]
  split
  · next hc => rw [hc]
  · next hc => rw [hc]

theorem exists_of_scan_eq_cons {line : Text} {p : Piece} {ps : List Piece}
    (h : scan line = p :: ps) : ∃ rest, scan rest = ps := by
  fun_cases scan line with
  | case1 => cases (scan.eq_1).symm.trans h
  | case2 c rest hc =>
    rw [scan, if_pos hc] at h
    exact ⟨_, (List.cons.inj h).2⟩
  | case3 rest body rest' hq _ =>
    rw [scan_quote, hq] at h
    exact ⟨_, (List.cons.inj h).2⟩
  | case4 rest hq _ =>
    rw [scan_quote, hq] at h
    exact ⟨_, (List.cons.inj h).2⟩
  | case5 c rest hc hq =>
    rw [scan, if_neg hc, if_neg hq] at h
    exact ⟨_, (List.cons.inj h).2⟩

/-- The text from any piece on is read as on its own. -/
theorem scan_spell_of_suffix {line : Text} {ps : List Piece} (h : ps <:+ scan line) :
    scan (Piece.spell ps) = ps := by
  obtain ⟨before, h⟩ := h
  induction before generalizing line with
  | nil =>
    obtain rfl : ps = scan line := h
    rw [spell_scan]
  | cons p before ih =>
    obtain ⟨rest, hr⟩ := exists_of_scan_eq_cons h.symm
    exact ih hr.symm

def argumentPieces (line : Text) : List Piece := afterWord (scan line)

def arguments (line : Text) : List Word := words (argumentPieces line)

theorem onward_suffix {line : Text} {w : Word} (h : w ∈ arguments line) : w.onward <:+ line := by
  have := spell_suffix (afterWord_suffix (scan line))
  exact (onward_suffix_spell h).trans (by rwa [spell_scan] at this)

theorem eq_append_quote_of_closing? {t body rest : Text} (h : closing? t = some (body, rest)) :
    ∃ l, body = l ++ ['"'] := by
  fun_induction closing? t generalizing body rest with
  | case1 => simp at h
  | case2 => exact ⟨[], by simp_all⟩
  | case3 => simp at h
  | case4 => exact ⟨[], by simp_all⟩
  | case5 d r hd _ ih =>
    obtain ⟨⟨b, r'⟩, hb, he⟩ := Option.map_eq_some_iff.mp h
    obtain ⟨l, rfl⟩ := ih hb
    exact ⟨'\\' :: d :: l, by simp_all⟩
  | case6 => simp at h
  | case7 c d r hc hb ih =>
    obtain ⟨⟨b, r'⟩, hb, he⟩ := Option.map_eq_some_iff.mp h
    obtain ⟨l, rfl⟩ := ih hb
    exact ⟨c :: l, by simp_all⟩

theorem isBlank_of_isBare {c : Char} (h : isBare c = true) : isBlank c = false := by
  simp only [isBare, Bool.and_eq_true, Bool.not_eq_true'] at h
  exact h.2

theorem tight_of_mem_scan {line w : Text} {p : Piece} (h : p ∈ scan line)
    (hw : p.item? = some w) : w.Tight := by
  fun_induction scan line with
  | case1 => simp at h
  | case2 c rest hc ih =>
    rcases List.mem_cons.mp h with rfl | h
    · obtain rfl := Option.some.inj hw
      apply tight_of_forall (by simp)
      intro d hd
      rcases List.mem_cons.mp hd with rfl | hd
      · exact isBlank_of_isBare hc
      · exact isBlank_of_isBare (List.all_eq_true.mp List.all_takeWhile d hd)
    · exact ih h
  | case3 rest body rest' hb _ ih =>
    rcases List.mem_cons.mp h with rfl | h
    · obtain rfl := Option.some.inj hw
      obtain ⟨l, rfl⟩ := eq_append_quote_of_closing? hb
      exact ⟨⟨'"', l ++ ['"'], rfl, by decide⟩, ⟨'"' :: l, '"', rfl, by decide⟩⟩
    · exact ih h
  | case4 rest _ _ ih =>
    rcases List.mem_cons.mp h with rfl | h
    · simp [item?] at hw
    · exact ih h
  | case5 c rest _ _ ih =>
    rcases List.mem_cons.mp h with rfl | h
    · simp [item?] at hw
    · exact ih h

theorem tight_of_mem_items {line w : Text} (h : w ∈ items (argumentPieces line)) : w.Tight := by
  obtain ⟨p, hp, hw⟩ := List.mem_filterMap.mp h
  exact tight_of_mem_scan ((afterWord_suffix _).mem hp) hw

theorem tight_of_mem_arguments {line : Text} {w : Word} (h : w ∈ arguments line) :
    w.text.Tight := by
  have hm : w.text ∈ items (argumentPieces line) := by
    rw [items_eq_map_words]
    exact List.mem_map_of_mem h
  exact tight_of_mem_items hm

/-- Only blanks stand between and behind the arguments of the line. -/
def StrayFree (line : Text) : Prop := ∀ c ∈ gaps (argumentPieces line), isBlank c = true

instance (line : Text) : Decidable (StrayFree line) :=
  List.decidableBAll (isBlank · = true) (gaps (argumentPieces line))

end Line

namespace Invocation

open Piece Line

theorem of_ofPieces? {ps : List Piece} {inv : Invocation} (h : ofPieces? ps = some inv) :
    inv.items = Piece.items (afterWord ps) ∧
      inv.text = Text.trimStart (spell (afterWord ps)) := by
  fun_induction ofPieces? ps with
  | case1 => simp at h
  | case2 name rest =>
    obtain rfl := Option.some.inj h
    exact ⟨rfl, rfl⟩
  | case3 => simp at h
  | case4 c rest ih => exact ih h

theorem items_eq {line : Text} {inv : Invocation} (h : ofLine? line = some inv) :
    inv.items = (arguments line).map Word.text :=
  (of_ofPieces? h).1.trans (items_eq_map_words _)

theorem text_eq {line : Text} {inv : Invocation} (h : ofLine? line = some inv) :
    inv.text = Text.trimStart (spell (argumentPieces line)) :=
  (of_ofPieces? h).2

/-- A line is stray-free if all characters of its text but blanks are those of its items. -/
theorem strayFree_iff {line : Text} {inv : Invocation} (h : ofLine? line = some inv) :
    StrayFree line ↔
      inv.text.countP (!Text.isBlank ·) = inv.items.flatten.countP (!Text.isBlank ·) := by
  rw [text_eq h, (of_ofPieces? h).1, Text.countP_trimStart, countP_spell]
  simp [StrayFree, argumentPieces, List.countP_eq_zero]

end Invocation

end ChatCommand
