import ChatCommand.Proofs.Line.Tokenization

/-! # Joining words into a line

Scanning has no memory: a word is read alike whatever stands in front of it. So a line that joins a
name and items by blanks invokes that name with those items, and the parts of an invocation, joined
again, are the same invocation.
-/

namespace ChatCommand

open Text

namespace Piece

theorem items_gaps_append (blanks : Text) (ps : List Piece) :
    items (blanks.map gap ++ ps) = items ps := by
  induction blanks with
  | nil => rfl
  | cons c blanks ih => exact (items_cons_gap c _).trans ih

theorem gaps_gaps_append (blanks : Text) (ps : List Piece) :
    gaps (blanks.map gap ++ ps) = blanks ++ gaps ps := by
  induction blanks with
  | nil => rfl
  | cons c blanks ih => exact congrArg (c :: ·) ih

end Piece

namespace Line

open Piece

theorem scan_blanks_append {blanks : Text} (h : blanks.AllBlank) (t : Text) :
    scan (blanks ++ t) = blanks.map .gap ++ scan t := by
  induction blanks with
  | nil => rfl
  | cons c blanks ih =>
    obtain ⟨hc, hb⟩ := List.forall_mem_cons.mp h
    rw [List.cons_append, scan_blank_cons hc, ih hb]
    rfl

theorem items_scan_blanks_append {blanks : Text} (h : blanks.AllBlank) (t : Text) :
    items (scan (blanks ++ t)) = items (scan t) := by
  rw [scan_blanks_append h, items_gaps_append]

theorem items_scan_trimStart (t : Text) : items (scan (trimStart t)) = items (scan t) := by
  have hb : AllBlank (t.takeWhile isBlank) := List.all_eq_true.mp List.all_takeWhile
  rw [← items_scan_blanks_append hb, trimStart, List.takeWhile_append_dropWhile]

theorem ofLine?_blanks_append {blanks : Text} (h : blanks.AllBlank) (t : Text) :
    Invocation.ofLine? (blanks ++ t) = Invocation.ofLine? t := by
  rw [Invocation.ofLine?, scan_blanks_append h, Invocation.ofLine?]
  generalize scan t = ps
  clear h
  induction blanks with
  | nil => rfl
  | cons c blanks ih => exact ih

variable {line name t w : Text} {ws : List Text} {inv : Invocation}

theorem kind_of_mem_items (h : w ∈ items (scan line)) : IsBareWord w ∨ IsQuoted w := by
  rw [items_eq_map_words] at h
  obtain ⟨v, hv, rfl⟩ := List.mem_map.mp h
  have ht : Tokenization line (words (scan line)) := tokenization_iff.mpr rfl
  exact (ht.kind v hv).imp_left (·.word)

theorem tight_of_kind (h : IsBareWord w ∨ IsQuoted w) : w.Tight := by
  obtain ⟨p, hp, hs⟩ := scan_word_append (t := []) h nofun
  exact tight_of_mem_scan (hs ▸ List.mem_cons_self) hp

/-- Joined words are the items of the text, and only blanks stand between them. -/
theorem scan_joined (hk : ∀ w ∈ ws, IsBareWord w ∨ IsQuoted w) (h : Joined ws t) :
    items (scan t) = ws ∧ (gaps (scan t)).AllBlank := by
  induction h with
  | nil => exact ⟨by simp [scan, items], by simp [scan, gaps, AllBlank]⟩
  | @cons w blanks t ws hb hn hj ih =>
    obtain ⟨hw, hws⟩ := List.forall_mem_cons.mp hk
    obtain ⟨p, hp, hs⟩ := scan_word_append hw fun c hc =>
      isBare_of_isBlank (hj.isBlank_of_mem_head? hb hn c hc)
    obtain ⟨hi, hg⟩ := ih hws
    rw [hs, items_cons_word hp, gaps_cons_word hp, scan_blanks_append hb, items_gaps_append,
      gaps_gaps_append, hi]
    exact ⟨rfl, List.forall_mem_append.mpr ⟨hb, hg⟩⟩

theorem trimStart_of_joined (hk : ∀ w ∈ ws, IsBareWord w ∨ IsQuoted w) (h : Joined ws t) :
    trimStart t = t := by
  cases h with
  | nil => rfl
  | cons =>
    simpa using (tight_of_kind (hk _ List.mem_cons_self)).trimStart_append [] _

theorem ofLine?_bare_append (hn : IsBareWord name) (ht : ∀ c ∈ t.head?, isBare c = false) :
    Invocation.ofLine? (name ++ t) = some ⟨name, items (scan t), trimStart t⟩ := by
  rw [Invocation.ofLine?, scan_bare_append hn ht, Invocation.ofPieces?, spell_scan]

theorem strayFree_bare_append_iff (hn : IsBareWord name) (ht : ∀ c ∈ t.head?, isBare c = false) :
    StrayFree (name ++ t) ↔ (gaps (scan t)).AllBlank := by
  rw [StrayFree, argumentPieces, scan_bare_append hn ht]
  rfl

theorem ofLine?_joined {lead gap : Text} (hl : lead.AllBlank) (hn : IsBareWord name)
    (hk : ∀ w ∈ ws, IsBareWord w ∨ IsQuoted w) (hg : gap.AllBlank) (hne : ws ≠ [] → gap ≠ [])
    (h : Joined ws t) :
    Invocation.ofLine? (lead ++ (name ++ (gap ++ t))) = some ⟨name, ws, t⟩ := by
  rw [ofLine?_blanks_append hl, ofLine?_bare_append hn fun c hc =>
    isBare_of_isBlank (h.isBlank_of_mem_head? hg hne c hc), items_scan_blanks_append hg,
    (scan_joined hk h).1, hg.trimStart_append, trimStart_of_joined hk h]

theorem exists_of_ofLine? (h : Invocation.ofLine? line = some inv) :
    IsBareWord inv.name ∧ ∃ rest, inv.items = items (scan rest) ∧ inv.text = trimStart rest := by
  constructor
  · obtain ⟨first, ws, hw, hq, rfl⟩ := ofLine?_eq_some_iff.mp h
    have hm : first.text ∈ items (scan line) := by
      rw [items_eq_map_words, hw]
      exact List.mem_cons_self
    exact (kind_of_mem_items hm).resolve_right hq
  · obtain ⟨hi, ht⟩ := Invocation.of_ofPieces? h
    refine ⟨_, ?_, ht⟩
    rw [scan_spell_of_suffix (afterWord_suffix _), hi]

theorem ofLine?_intercalate (h : Invocation.ofLine? line = some inv) :
    Invocation.ofLine? ([' '].intercalate (inv.name :: inv.items)) =
      some ⟨inv.name, inv.items, [' '].intercalate inv.items⟩ := by
  obtain ⟨hn, rest, hi, -⟩ := exists_of_ofLine? h
  have hk : ∀ w ∈ inv.items, IsBareWord w ∨ IsQuoted w := fun w hw => kind_of_mem_items (hi ▸ hw)
  have hj := joined_intercalate inv.items
  cases hw : inv.items with
  | nil =>
    rw [hw] at hj hk
    simpa using ofLine?_joined allBlank_nil hn hk allBlank_nil (absurd rfl) hj
  | cons v ws =>
    rw [hw] at hj hk
    rw [List.intercalate_cons_cons, List.append_assoc]
    exact ofLine?_joined allBlank_nil hn hk allBlank_space (fun _ => List.cons_ne_nil _ _) hj

theorem ofLine?_text (h : Invocation.ofLine? line = some inv) :
    Invocation.ofLine? (inv.name ++ ' ' :: inv.text) = some inv := by
  obtain ⟨hn, rest, hi, ht⟩ := exists_of_ofLine? h
  have hb : ∀ c ∈ (' ' :: inv.text).head?, isBare c = false := by
    rintro c ⟨⟩
    decide
  have hs : items (scan ([' '] ++ inv.text)) = inv.items := by
    rw [items_scan_blanks_append allBlank_space, ht, items_scan_trimStart, hi]
  have htext : trimStart ([' '] ++ inv.text) = inv.text := by
    rw [allBlank_space.trimStart_append, ht, trimStart_trimStart]
  rw [ofLine?_bare_append hn hb]
  exact congrArg some (congrArg₂ (Invocation.mk inv.name) hs htext)

/-- Joining a name and items by blanks gives a line that invokes them, with the text from the first
item on. The items of any line are not empty, and its invocation is found again in the name and the
items joined by spaces and in the name with the text behind it. -/
theorem ofLine?_joined_stable :
    (∀ (lead name gap text : Text) (items : List Text), lead.AllBlank → IsBareWord name →
      (∀ w ∈ items, IsBareWord w ∨ IsQuoted w) → gap.AllBlank → (items ≠ [] → gap ≠ []) →
      Joined items text →
      Invocation.ofLine? (lead ++ (name ++ (gap ++ text))) = some ⟨name, items, text⟩) ∧
    ∀ (line : Text) (inv : Invocation), Invocation.ofLine? line = some inv →
      (∀ w ∈ inv.items, w ≠ []) ∧
      Invocation.ofLine? ([' '].intercalate (inv.name :: inv.items)) =
        some ⟨inv.name, inv.items, [' '].intercalate inv.items⟩ ∧
      Invocation.ofLine? (inv.name ++ ' ' :: inv.text) = some inv := by
  refine ⟨fun lead name gap text items hl hn hk hg hne => ofLine?_joined hl hn hk hg hne,
    fun line inv h => ⟨fun w hw => ?_, ofLine?_intercalate h, ofLine?_text h⟩⟩
  obtain ⟨-, rest, hi, -⟩ := exists_of_ofLine? h
  exact (tight_of_kind (kind_of_mem_items (hi ▸ hw))).ne_nil

theorem ofLine?_joined_stable_stray :
    Invocation.ofLine? " say\t\"a b\"  é ".toList =
      some ⟨"say".toList, ["\"a b\"".toList, "é".toList], "\"a b\"  é ".toList⟩ ∧
    ∃ inv, Invocation.ofLine? "\\say \"a b\"c \"d".toList = some inv ∧
      inv.text = "\"a b\"c \"d".toList ∧
      Invocation.ofLine? "say \"a b\" c d".toList =
        some ⟨inv.name, inv.items, "\"a b\" c d".toList⟩ ∧
      Invocation.ofLine? "say \"a b\"c \"d".toList = some inv := by
  obtain ⟨hjoined, hstable⟩ := ofLine?_joined_stable
  constructor
  · have hn : IsBareWord "say".toList := ⟨by decide, List.all_eq_true.mp rfl⟩
    have hc : closing? "a b\"".toList = some ("a b\"".toList, []) := by decide
    have hq : IsQuoted "\"a b\"".toList := ⟨_, rfl, closes_of_closing? hc⟩
    have hb : IsBareWord "é".toList := ⟨by decide, List.all_eq_true.mp rfl⟩
    have hj : Joined ["\"a b\"".toList, "é".toList]
        ("\"a b\"".toList ++ ([' ', ' '] ++ ("é".toList ++ ([' '] ++ [])))) :=
      .cons (List.all_eq_true.mp rfl) (by decide) (.cons allBlank_space (by decide) .nil)
    exact hjoined [' '] _ ['\t'] _ _ allBlank_space hn
      (List.forall_mem_cons.mpr ⟨.inr hq, List.forall_mem_singleton.mpr (.inl hb)⟩)
      (List.all_eq_true.mp rfl) (by decide) hj
  · let inv : Invocation :=
      ⟨"say".toList, ["\"a b\"".toList, ['c'], ['d']], "\"a b\"c \"d".toList⟩
    have hi : Invocation.ofLine? "\\say \"a b\"c \"d".toList = some inv := by decide +kernel
    obtain ⟨-, hjoin, htext⟩ := hstable _ _ hi
    exact ⟨inv, hi, rfl, hjoin, htext⟩

end Line

end ChatCommand
