import Mathlib.Data.List.Infix
import ChatCommand.Proofs.Line.Quoted

/-! # The tokenization of a line

A tokenization is described by what its words are and by what may stand outside of them, without
saying how they are found. A line has exactly one, which is what scanning the line returns, and the
invocation of the line is read off it.
-/

namespace ChatCommand

open Text

/-- A place in a line is given by the line from there on. The word holds the places between its
start and its end. -/
def Word.Holds (w : Word) (place : Text) : Prop := place <:+ w.onward ∧ ¬ place <:+ w.behind

namespace Line

structure IsRun (line : Text) (w : Word) : Prop where
  word : IsBareWord w.text
  left : ∀ c, c :: w.onward <:+ line → isBare c = false
  right : ∀ c ∈ w.behind.head?, isBare c = false

/-- The words stand in the line one after the other. Each is a longest bare run or a quoted string,
and a character that no word holds is a blank, a backslash or a quote that starts no string. -/
structure Tokenization (line : Text) (ws : List Word) : Prop where
  located : ∀ w ∈ ws, w.onward <:+ line
  ordered : ws.Pairwise fun v w => w.onward <:+ v.behind
  kind : ∀ w ∈ ws, IsRun line w ∨ IsQuoted w.text
  skipped : ∀ c rest, c :: rest <:+ line → (∀ w ∈ ws, ¬ w.Holds (c :: rest)) →
    isBlank c = true ∨ c = '\\' ∨ c = '"' ∧ ∀ t, IsQuoted t → ¬ t <+: c :: rest

theorem IsRun.mono {line rest : Text} {w : Word} (h : IsRun line w) (hr : rest <:+ line) :
    IsRun rest w :=
  ⟨h.word, fun c hc => h.left c (hc.trans hr), h.right⟩

theorem IsRun.eq_takeWhile {line : Text} {w : Word} (h : IsRun line w) :
    w.text = w.onward.takeWhile isBare := by
  have hb : w.behind.takeWhile isBare = [] := by
    cases hw : w.behind with
    | nil => rfl
    | cons c r => exact List.takeWhile_cons_of_neg (by simp [h.right c (by simp [hw])])
  rw [Word.onward, List.takeWhile_append_of_pos h.word.bare, hb, List.append_nil]

theorem exists_of_isRun {line : Text} {w : Word} (h : IsRun line w) :
    ∃ c r, w.onward = c :: r ∧ isBare c = true := by
  obtain ⟨c, r, hr⟩ := List.exists_cons_of_ne_nil h.word.ne_nil
  exact ⟨c, r ++ w.behind, by simp [Word.onward, hr], h.word.bare c (by simp [hr])⟩

theorem exists_of_isQuoted {w : Word} (h : IsQuoted w.text) :
    ∃ r body, w.onward = '"' :: r ∧ w.text = '"' :: body ∧ closing? r = some (body, w.behind) := by
  obtain ⟨body, hb, hc⟩ := h
  exact ⟨body ++ w.behind, body, by simp [Word.onward, hb], hb, hc.closing?_append _⟩

variable {line : Text} {v w : Word} {ws : List Word}

theorem eq_of_onward_eq {line' : Text} (hv : IsRun line v ∨ IsQuoted v.text)
    (hw : IsRun line' w ∨ IsQuoted w.text) (h : v.onward = w.onward) : v = w := by
  have hne : ∀ {l : Text} {a b : Word}, IsRun l a → IsQuoted b.text → a.onward ≠ b.onward := by
    intro l a b ha hb he
    obtain ⟨c, r, hc, hbare⟩ := exists_of_isRun ha
    obtain ⟨r', _, hq, -⟩ := exists_of_isQuoted hb
    rw [hc, hq] at he
    rw [(List.cons.inj he).1, isBare_quote] at hbare
    cases hbare
  have ht : v.text = w.text := by
    rcases hv with hv | hv <;> rcases hw with hw | hw
    · rw [hv.eq_takeWhile, hw.eq_takeWhile, h]
    · exact absurd h (hne hv hw)
    · exact absurd h.symm (hne hw hv)
    · obtain ⟨r, b, hr, hb, hc⟩ := exists_of_isQuoted hv
      obtain ⟨r', b', hr', hb', hc'⟩ := exists_of_isQuoted hw
      obtain rfl : r = r' := (List.cons.inj (hr.symm.trans (h.trans hr'))).2
      rw [hb, hb', (Prod.mk.inj (Option.some.inj (hc.symm.trans hc'))).1]
  obtain ⟨vt, vb⟩ := v
  obtain ⟨wt, wb⟩ := w
  obtain rfl : vt = wt := ht
  obtain rfl : vb = wb := List.append_cancel_left h
  rfl

theorem ne_nil_of_kind (h : IsRun line w ∨ IsQuoted w.text) : w.text ≠ [] := by
  rcases h with h | h
  · exact h.word.ne_nil
  · exact h.ne_nil

theorem length_behind_lt (h : w.text ≠ []) : w.behind.length < w.onward.length := by
  have := List.length_pos_iff.mpr h
  rw [Word.onward, List.length_append]
  omega

theorem tokenization_nil_iff : Tokenization [] ws ↔ ws = [] := by
  constructor
  · intro h
    cases ws with
    | nil => rfl
    | cons w ws =>
      have hs := h.located w List.mem_cons_self
      have := (List.append_eq_nil_iff.mp (List.suffix_nil.mp hs)).1
      exact absurd this (ne_nil_of_kind (h.kind w List.mem_cons_self))
  · rintro rfl
    exact ⟨by simp, .nil, by simp, fun c rest h => by simp at h⟩

theorem tokenization_gap_iff {c : Char} {rest : Text} (hc : isBare c = false)
    (hq : c = '"' → closing? rest = none) :
    Tokenization (c :: rest) ws ↔ Tokenization rest ws := by
  constructor
  · intro h
    refine ⟨fun w hw => ?_, h.ordered, fun w hw => ?_, fun d r hr => ?_⟩
    · refine (List.suffix_cons_iff.mp (h.located w hw)).resolve_left fun he => ?_
      rcases h.kind w hw with hk | hk
      · obtain ⟨d, r, hd, hb⟩ := exists_of_isRun hk
        rw [← (List.cons.inj (he.symm.trans hd)).1, hc] at hb
        cases hb
      · obtain ⟨r, body, hr, -, hb⟩ := exists_of_isQuoted hk
        obtain ⟨rfl, rfl⟩ := List.cons.inj (he.symm.trans hr)
        rw [hq rfl] at hb
        cases hb
    · exact (h.kind w hw).imp_left (·.mono (List.suffix_cons _ _))
    · exact h.skipped d r (hr.trans (List.suffix_cons _ _))
  · intro h
    refine ⟨fun w hw => (h.located w hw).trans (List.suffix_cons _ _), h.ordered, fun w hw => ?_,
      fun d r hr hh => ?_⟩
    · refine (h.kind w hw).imp_left fun hk => ⟨hk.word, fun d hd => ?_, hk.right⟩
      rcases List.suffix_cons_iff.mp hd with he | hd
      · rw [(List.cons.inj he).1, hc]
      · exact hk.left d hd
    · rcases List.suffix_cons_iff.mp hr with he | hr
      · obtain ⟨rfl, rfl⟩ := List.cons.inj he
        simp only [isBare, Bool.and_eq_false_iff, bne_eq_false_iff_eq, Bool.not_eq_false'] at hc
        rcases hc with (rfl | rfl) | hc
        · exact .inr (.inl rfl)
        · exact .inr (.inr ⟨rfl, closing?_eq_none_iff.mp (hq rfl)⟩)
        · exact .inl hc
      · exact h.skipped d r hr hh

theorem Tokenization.mem (h : Tokenization w.onward ws) (hw : IsRun w.onward w ∨ IsQuoted w.text) :
    w ∈ ws := by
  obtain ⟨c, rest, ho⟩ : ∃ c rest, w.onward = c :: rest := by
    have := length_behind_lt (ne_nil_of_kind hw)
    exact List.exists_cons_of_ne_nil (List.ne_nil_of_length_pos (by omega))
  by_contra hno
  -- a word that holds the first character starts there, and so is this one
  have hs := h.skipped c rest (ho ▸ List.suffix_refl _) fun v hv hh => by
    have hon : v.onward = w.onward := (h.located v hv).eq_of_length_le (ho ▸ hh.1.length_le)
    exact hno (eq_of_onward_eq (h.kind v hv) hw hon ▸ hv)
  rcases hw with hw | hw
  · obtain ⟨d, r, hd, hb⟩ := exists_of_isRun hw
    obtain ⟨rfl, -⟩ := List.cons.inj (ho.symm.trans hd)
    rcases hs with hs | rfl | ⟨rfl, -⟩
    · rw [isBlank_of_isBare hb] at hs
      cases hs
    · exact absurd hb (by decide)
    · exact absurd hb (by decide)
  · obtain ⟨r, body, hd, -, hb⟩ := exists_of_isQuoted hw
    obtain ⟨rfl, rfl⟩ := List.cons.inj (ho.symm.trans hd)
    rcases hs with hs | hs | ⟨-, hs⟩
    · exact absurd hs (by decide)
    · exact absurd hs (by decide)
    · rw [closing?_eq_none_iff.mpr hs] at hb
      cases hb

/-- A word at the start of a line comes first, and the others tokenize what follows it. -/
theorem Tokenization.eq_cons (h : Tokenization w.onward ws) (hw : w ∈ ws) :
    ∃ vs, ws = w :: vs ∧ Tokenization w.behind vs := by
  have hsuf : w.behind <:+ w.onward := List.suffix_append _ _
  cases ws with
  | nil => simp at hw
  | cons u us =>
    obtain ⟨hu, hus⟩ := List.pairwise_cons.mp h.ordered
    have hlt := length_behind_lt (ne_nil_of_kind (h.kind u List.mem_cons_self))
    obtain rfl : w = u := by
      refine (List.mem_cons.mp hw).resolve_right fun hw => ?_
      have h₁ := (hu w hw).length_le
      have h₂ := (h.located u List.mem_cons_self).length_le
      omega
    refine ⟨us, rfl, hu, hus, fun v hv => ?_, fun c rest hr hh => ?_⟩
    · exact (h.kind v (List.mem_cons_of_mem _ hv)).imp_left (·.mono hsuf)
    · exact h.skipped c rest (hr.trans hsuf) (List.forall_mem_cons.mpr ⟨fun hw => hw.2 hr, hh⟩)

theorem IsRun.onward (hv : IsRun w.behind v) (hs : v.onward <:+ w.behind)
    (hw : IsRun w.onward w ∨ IsQuoted w.text) : IsRun w.onward v := by
  have hsuf : w.behind <:+ w.onward := List.suffix_append _ _
  refine ⟨hv.word, fun c hc => ?_, hv.right⟩
  rcases List.suffix_or_suffix_of_suffix hc hsuf with hc' | hc'
  · exact hv.left c hc'
  rcases List.suffix_cons_iff.mp hc' with he | hc'
  · exact hv.left c (he ▸ List.suffix_refl _)
  -- The run starts where the word ends, so the character before it is the last one of the word.
  have he : w.behind = v.onward := hc'.eq_of_length_le hs.length_le
  obtain ⟨t, ht⟩ := hc
  rw [← he, Word.onward, List.append_cons] at ht
  have ht : t ++ [c] = w.text := List.append_cancel_right ht
  rcases hw with hw | ⟨body, hb, hcl⟩
  · obtain ⟨d, r, hd, hbare⟩ := exists_of_isRun hv
    have := hw.right d (by rw [he, hd]; rfl)
    rw [hbare] at this
    cases this
  · obtain ⟨l, rfl⟩ := eq_append_quote_of_closing? (hcl.closing?_append [])
    rw [hb, ← List.cons_append] at ht
    rw [(List.cons.inj (List.append_inj' ht rfl).2).1, isBare_quote]

theorem Tokenization.cons (h : Tokenization w.behind ws)
    (hw : IsRun w.onward w ∨ IsQuoted w.text) : Tokenization w.onward (w :: ws) := by
  have hsuf : w.behind <:+ w.onward := List.suffix_append _ _
  refine ⟨?_, List.pairwise_cons.mpr ⟨h.located, h.ordered⟩, ?_, fun c rest hr hh => ?_⟩
  · exact List.forall_mem_cons.mpr ⟨List.suffix_refl _, fun v hv => (h.located v hv).trans hsuf⟩
  · exact List.forall_mem_cons.mpr ⟨hw, fun v hv =>
      (h.kind v hv).imp_left fun hk => hk.onward (h.located v hv) hw⟩
  · obtain ⟨hn, hh⟩ := List.forall_mem_cons.mp hh
    exact h.skipped c rest (not_not.mp fun hb => hn ⟨hr, hb⟩) hh

theorem isRun_takeWhile {c : Char} (hc : isBare c = true) (rest : Text) :
    IsRun (c :: rest) ⟨c :: rest.takeWhile isBare, rest.dropWhile isBare⟩ := by
  refine ⟨⟨List.cons_ne_nil _ _, ?_⟩, fun d hd => ?_, fun d hd => ?_⟩
  · exact List.forall_mem_cons.mpr ⟨hc, List.all_eq_true.mp List.all_takeWhile⟩
  · have := hd.length_le
    simp only [Word.onward, List.cons_append, List.takeWhile_append_dropWhile,
      List.length_cons] at this
    omega
  · have := List.head?_dropWhile_not isBare rest
    rw [Option.mem_def.mp hd] at this
    exact this

theorem tokenization_piece_iff {p : Piece} {t rest : Text} (hp : p.item? = some t)
    (hk : IsRun (t ++ rest) ⟨t, rest⟩ ∨ IsQuoted t)
    (ih : ∀ {vs}, Tokenization rest vs ↔ vs = Piece.words (scan rest)) :
    Tokenization (t ++ rest) ws ↔ ws = Piece.words (p :: scan rest) := by
  rw [Piece.words_cons_word hp, spell_scan]
  constructor
  · intro h
    have hm := Tokenization.mem (w := ⟨t, rest⟩) h hk
    obtain ⟨vs, rfl, hvs⟩ := Tokenization.eq_cons (w := ⟨t, rest⟩) h hm
    rw [ih.mp hvs]
  · rintro rfl
    exact Tokenization.cons (w := ⟨t, rest⟩) (ih.mpr rfl) hk

/-- Scanning finds the one tokenization of a line. -/
theorem tokenization_iff {line : Text} {ws : List Word} :
    Tokenization line ws ↔ ws = Piece.words (scan line) := by
  fun_induction scan line generalizing ws with
  | case1 => exact tokenization_nil_iff
  | case2 c rest hc ih =>
    have hs : c :: rest.takeWhile isBare ++ rest.dropWhile isBare = c :: rest := by
      rw [List.cons_append, List.takeWhile_append_dropWhile]
    rw [← tokenization_piece_iff rfl (.inl (hs ▸ isRun_takeWhile hc rest)) ih, hs]
  | case3 rest body rest' hb _ ih =>
    obtain ⟨rfl, hcl⟩ := closing?_eq_some_iff.mp hb
    exact tokenization_piece_iff rfl (.inr ⟨body, rfl, hcl⟩) ih
  | case4 rest hn _ ih =>
    rw [tokenization_gap_iff isBare_quote fun _ => hn, Piece.words_cons_gap]
    exact ih
  | case5 c rest hc hq ih =>
    rw [tokenization_gap_iff (by simpa using hc) fun h => absurd h hq, Piece.words_cons_gap]
    exact ih

theorem isQuoted_iff_of_mem_scan {line : Text} {p : Piece} {t : Text} (h : p ∈ scan line)
    (ht : p.item? = some t) : IsQuoted t ↔ p = .quoted t := by
  fun_induction scan line with
  | case1 => simp at h
  | case2 c rest hc ih =>
    rcases List.mem_cons.mp h with rfl | h
    · obtain rfl := Option.some.inj ht
      exact iff_of_false (isRun_takeWhile hc rest).word.not_isQuoted (by simp)
    · exact ih h
  | case3 rest body rest' hb _ ih =>
    rcases List.mem_cons.mp h with rfl | h
    · obtain rfl := Option.some.inj ht
      exact iff_of_true ⟨body, rfl, closes_of_closing? hb⟩ rfl
    · exact ih h
  | case4 rest _ _ ih =>
    rcases List.mem_cons.mp h with rfl | h
    · simp [Piece.item?] at ht
    · exact ih h
  | case5 c rest _ _ ih =>
    rcases List.mem_cons.mp h with rfl | h
    · simp [Piece.item?] at ht
    · exact ih h

theorem ofLine?_eq_some_iff {line : Text} {inv : Invocation} :
    Invocation.ofLine? line = some inv ↔ ∃ first rest, Piece.words (scan line) = first :: rest ∧
      ¬ IsQuoted first.text ∧
      inv = ⟨first.text, rest.map Word.text, trimStart first.behind⟩ := by
  have hk : ∀ p ∈ scan line, ∀ t, p.item? = some t → (IsQuoted t ↔ p = .quoted t) :=
    fun p hp t => isQuoted_iff_of_mem_scan hp
  rw [Invocation.ofLine?]
  generalize scan line = ps at hk
  induction ps with
  | nil => simp [Invocation.ofPieces?]
  | cons p ps ih =>
    obtain ⟨hp, hps⟩ := List.forall_mem_cons.mp hk
    cases p with
    | bare t =>
      have hq : ¬ IsQuoted t := fun h => by simpa using (hp t rfl).mp h
      rw [Invocation.ofPieces?, Piece.words_cons_word (w := t) rfl, Piece.items_eq_map_words]
      constructor
      · intro h
        exact ⟨_, _, rfl, hq, (Option.some.inj h).symm⟩
      · rintro ⟨first, rest, hw, -, rfl⟩
        obtain ⟨rfl, rfl⟩ := List.cons.inj hw
        rfl
    | quoted t =>
      have hq : IsQuoted t := (hp t rfl).mpr rfl
      rw [Invocation.ofPieces?, Piece.words_cons_word (w := t) rfl]
      refine iff_of_false (by simp) ?_
      rintro ⟨first, rest, hw, hn, -⟩
      obtain ⟨rfl, -⟩ := List.cons.inj hw
      exact hn hq
    | gap c =>
      rw [Invocation.ofPieces?, Piece.words_cons_gap]
      exact ih hps

theorem ofLine?_eq_none_iff {line : Text} :
    Invocation.ofLine? line = none ↔
      ∀ first ∈ (Piece.words (scan line)).head?, IsQuoted first.text := by
  rw [Option.eq_none_iff_forall_ne_some]
  simp only [ne_eq, ofLine?_eq_some_iff]
  cases Piece.words (scan line) with
  | nil => simp
  | cons w ws => simp

end Line

/-- The parts between blanks, without the empty ones. -/
def Text.blankSplit (t : Text) : List Text := (t.splitOnP isBlank).filter (· ≠ [])

namespace Text

@[simp] theorem blankSplit_nil : blankSplit [] = [] := by simp [blankSplit]

theorem blankSplit_append_cons (s : Text) {c : Char} (hc : isBlank c = true) (t : Text) :
    blankSplit (s ++ c :: t) = blankSplit s ++ blankSplit t := by
  rw [blankSplit, List.splitOnP_append_cons s t hc, List.filter_append]
  rfl

theorem blankSplit_cons {c : Char} (hc : isBlank c = true) (t : Text) :
    blankSplit (c :: t) = blankSplit t := by
  simpa using blankSplit_append_cons [] hc t

theorem blankSplit_of_forall {w : Text} (hn : w ≠ []) (h : ∀ c ∈ w, isBlank c = false) :
    blankSplit w = [w] := by
  simp [blankSplit, List.splitOnP_eq_singleton h, hn]

end Text

namespace Line

theorem isBare_iff {c : Char} (h : c ≠ '\\' ∧ c ≠ '"') : isBare c = !isBlank c := by
  simp [isBare, h]

theorem map_text_words_scan {line : Text} (h : ∀ c ∈ line, c ≠ '\\' ∧ c ≠ '"') :
    (Piece.words (scan line)).map Word.text = blankSplit line := by
  fun_induction scan line with
  | case1 => simp
  | case2 c rest hc ih =>
    have hr : ∀ d ∈ rest.dropWhile isBare, d ≠ '\\' ∧ d ≠ '"' := fun d hd =>
      h d (List.mem_cons_of_mem _ ((List.dropWhile_suffix _).mem hd))
    have hw : ∀ d ∈ c :: rest.takeWhile isBare, isBlank d = false :=
      List.forall_mem_cons.mpr ⟨isBlank_of_isBare hc, fun d hd =>
        isBlank_of_isBare (List.all_eq_true.mp List.all_takeWhile d hd)⟩
    have hs : c :: rest.takeWhile isBare ++ rest.dropWhile isBare = c :: rest := by
      rw [List.cons_append, List.takeWhile_append_dropWhile]
    rw [Piece.words_cons_word rfl, List.map_cons, ih hr, ← hs]
    cases hd : rest.dropWhile isBare with
    | nil => simp [blankSplit_of_forall (List.cons_ne_nil _ _) hw]
    | cons d r =>
      have hb : isBlank d = true := by
        have : isBare d = false := by simpa [hd] using List.head?_dropWhile_not isBare rest
        simpa [isBare_iff (hr d (by simp [hd]))] using this
      rw [blankSplit_append_cons _ hb, blankSplit_of_forall (List.cons_ne_nil _ _) hw,
        blankSplit_cons hb]
      rfl
  | case3 => exact absurd rfl (h _ List.mem_cons_self).2
  | case4 => exact absurd rfl (h _ List.mem_cons_self).2
  | case5 c rest hc _ ih =>
    obtain ⟨hd, hr⟩ := List.forall_mem_cons.mp h
    rw [isBare_iff hd] at hc
    rw [Piece.words_cons_gap, ih hr, blankSplit_cons (by simpa using hc)]

theorem not_isQuoted_of_forall {line : Text} (h : ∀ c ∈ line, c ≠ '\\' ∧ c ≠ '"') {w : Word}
    (hw : w.onward <:+ line) : ¬ IsQuoted w.text := by
  rintro ⟨body, hb, -⟩
  exact (h '"' (hw.mem (by simp [Word.onward, hb]))).2 rfl

/-- Every line has exactly one tokenization. Its first word is invoked with the others as items,
unless it is quoted, and it is the split at blanks if the line has no backslash and no quote. -/
theorem existsUnique_tokenization (line : Text) :
    ∃ ws, (∀ vs, Tokenization line vs ↔ vs = ws) ∧
      (Invocation.ofLine? line = none ↔ ∀ first ∈ ws.head?, IsQuoted first.text) ∧
      (∀ inv, Invocation.ofLine? line = some inv ↔ ∃ first rest, ws = first :: rest ∧
        ¬ IsQuoted first.text ∧
        inv = ⟨first.text, rest.map Word.text, trimStart first.behind⟩) ∧
      ((∀ c ∈ line, c ≠ '\\' ∧ c ≠ '"') →
        (Invocation.ofLine? line).elim [] (fun inv => inv.name :: inv.items) =
          blankSplit line) := by
  refine ⟨Piece.words (scan line), fun vs => tokenization_iff, ofLine?_eq_none_iff,
    fun inv => ofLine?_eq_some_iff, fun h => ?_⟩
  have ht : Tokenization line (Piece.words (scan line)) := tokenization_iff.mpr rfl
  rw [← map_text_words_scan h]
  cases hw : Piece.words (scan line) with
  | nil =>
    have hn : Invocation.ofLine? line = none := ofLine?_eq_none_iff.mpr (by simp [hw])
    rw [hn]
    rfl
  | cons first rest =>
    have hq := not_isQuoted_of_forall h (ht.located first (by simp [hw]))
    rw [ofLine?_eq_some_iff.mpr ⟨first, rest, hw, hq, rfl⟩]
    rfl

theorem existsUnique_tokenization_plain :
    (∀ c ∈ "say it  twice".toList, c ≠ '\\' ∧ c ≠ '"') ∧
      (Invocation.ofLine? "say it  twice".toList).elim [] (fun inv => inv.name :: inv.items) =
        blankSplit "say it  twice".toList := by
  have hc : ∀ c ∈ "say it  twice".toList, c ≠ '\\' ∧ c ≠ '"' := by simp
  obtain ⟨ws, -, -, -, h⟩ := existsUnique_tokenization "say it  twice".toList
  exact ⟨hc, h hc⟩

/-- A quote that starts no string is skipped, and the one meant to close it opens the next. -/
example : (Piece.words (scan "cmd \"bad \\escape\" x\"".toList)).map Word.text =
    ["cmd".toList, "bad".toList, "escape".toList, "\" x\"".toList] := by decide +kernel

end Line

end ChatCommand
