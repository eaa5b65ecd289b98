import Mathlib.Data.List.TakeWhile
import ChatCommand.Proofs.Matching.Declared
import ChatCommand.Proofs.Matching.Positional

/-! # Text left over

A stray character makes the text of a cursor lag behind its items, and text that is left in the end
is refused. The lag is made up for only by an item whose last character has more bytes than the lag,
and nothing is left in the end only if no further stray follows that item.
-/

namespace ChatCommand

open Text

def Word.StrayFreeBehind (w : Word) : Prop :=
  ∀ c ∈ Piece.gaps (Line.scan w.behind), isBlank c = true

instance (w : Word) : Decidable w.StrayFreeBehind :=
  List.decidableBAll (isBlank · = true) (Piece.gaps (Line.scan w.behind))

namespace Piece

open Cursor

theorem trimStart_concat_eq_nil_iff {lag : Text} (hl : trimStart lag = lag) {c : Char} :
    trimStart (lag ++ [c]) = [] ↔ lag = [] ∧ isBlank c = true := by
  have hn : trimStart lag = [] ↔ ∀ d ∈ lag, isBlank d = true := List.dropWhile_eq_nil_iff
  rw [hl] at hn
  rw [hn]
  unfold trimStart
  rw [List.dropWhile_eq_nil_iff]
  simp [or_imp, forall_and]

/-- The lag in front of the end is empty if no stray was met at all, or if a word made up for the
lag in front of it and no stray was met behind it. -/
theorem last_lags_eq_nil_iff {ps : List Piece} (hp : ∀ w ∈ items ps, w.Tight)
    (hq : ∀ qs, qs <:+ ps → Line.scan (spell qs) = qs) {lag : Text} (hl : trimStart lag = lag) :
    (lags lag ps)[(words ps).length]? = some [] ↔
      (lag = [] ∧ ∀ c ∈ gaps ps, isBlank c = true) ∨
      ∃ (k : Nat) (w : Word) (l : Text), (words ps)[k]? = some w ∧ (lags lag ps)[k]? = some l ∧
        l ≠ [] ∧ utf8Size l < w.text.lastSize ∧ w.StrayFreeBehind := by
  induction ps generalizing lag with
  | nil => simp [gaps]
  | cons p ps ih =>
    have hqs : ∀ qs, qs <:+ ps → Line.scan (spell qs) = qs :=
      fun qs h => hq qs (h.trans (List.suffix_cons p ps))
    cases hi : p.item? with
    | none =>
      obtain ⟨c, rfl⟩ := eq_gap_of_item? hi
      rw [words_cons_gap, lags_cons_gap, ih hp hqs (trimStart_trimStart _), gaps_cons_gap,
        trimStart_concat_eq_nil_iff hl, List.forall_mem_cons, and_assoc]
    | some w =>
      rw [items_cons_word hi] at hp
      obtain ⟨hw, hps⟩ := List.forall_mem_cons.mp hp
      have hmade : skip (utf8Size w) (lag ++ w) = [] ↔ utf8Size lag < w.lastSize := by
        simpa using skip_word_eq_trimStart_iff lag [] hw
      have hbehind : Word.StrayFreeBehind ⟨w, spell ps⟩ ↔ ∀ c ∈ gaps ps, isBlank c = true := by
        unfold Word.StrayFreeBehind
        rw [hqs ps (List.suffix_refl ps)]
      rw [words_cons_word hi, lags_cons_word hi, gaps_cons_word hi, List.length_cons,
        List.getElem?_cons_succ, ih hps hqs (by simp [skip]), hmade]
      constructor
      · rintro (⟨hlt, hb⟩ | ⟨k, v, l, hv, hl', hrest⟩)
        · -- this word met no lag, or is the one that makes up for it
          by_cases hn : lag = []
          · exact .inl ⟨hn, hb⟩
          · exact .inr ⟨0, ⟨w, spell ps⟩, lag, rfl, rfl, hn, hlt, hbehind.mpr hb⟩
        · exact .inr ⟨k + 1, v, l, hv, hl', hrest⟩
      · rintro (⟨rfl, hb⟩ | ⟨k, v, l, hv, hl', hn, hlt, hb⟩)
        · exact .inl ⟨hw.lastSize_pos, hb⟩
        · cases k with
          | zero =>
            obtain rfl := Option.some.inj hv
            obtain rfl := Option.some.inj hl'
            exact .inl ⟨hlt, hbehind.mp hb⟩
          | succ k => exact .inr ⟨k, v, l, hv, hl', hn, hlt, hb⟩

end Piece

namespace Line

variable {line : Text} {inv : Invocation}

theorem last_lag_eq_nil_iff (hs : ¬ StrayFree line) :
    (lags line)[(arguments line).length]? = some [] ↔
      ∃ (k : Nat) (w : Word) (l : Text), (arguments line)[k]? = some w ∧ (lags line)[k]? = some l ∧
        l ≠ [] ∧ utf8Size l < w.text.lastSize ∧ w.StrayFreeBehind := by
  have hq : ∀ qs, qs <:+ argumentPieces line → scan (Piece.spell qs) = qs :=
    fun qs h => scan_spell_of_suffix (h.trans (Piece.afterWord_suffix _))
  refine (Piece.last_lags_eq_nil_iff (fun _ => tight_of_mem_items) hq rfl).trans ?_
  exact or_iff_right fun h => hs h.2

theorem text_iterate_advance_eq_nil_iff (h : Invocation.ofLine? line = some inv) (n : Nat) :
    (Cursor.advance^[n] ⟨inv.items, inv.text⟩).text = [] ↔
      (arguments line).length ≤ n ∧ (lags line)[(arguments line).length]? = some [] := by
  obtain ⟨last, hlast⟩ := exists_lag (Nat.le_refl (arguments line).length)
  rcases Nat.lt_or_ge n (arguments line).length with hn | hn
  · -- the text still ends with the next item
    obtain ⟨lag, hl⟩ := exists_lag (Nat.le_of_lt hn)
    have ht := (tight_of_mem_arguments (List.getElem_mem hn)).ne_nil
    rw [iterate_advance h hl, List.drop_eq_getElem_cons hn, Word.lineFrom_cons]
    simp [Word.onward, ht, Nat.not_le.mpr hn]
  · have hend : Cursor.advance^[(arguments line).length] ⟨inv.items, inv.text⟩ = ⟨[], last⟩ := by
      rw [iterate_advance h hlast, List.drop_length]
      simp
    obtain ⟨j, rfl⟩ := Nat.exists_eq_add_of_le' hn
    rw [Function.iterate_add_apply, hend, Function.iterate_fixed rfl, hlast]
    simp

end Line

namespace Usage

variable {line pattern : Text} {inv : Invocation} {usage : Usage}

theorem exists_attempt_iff_positional (h : Invocation.ofLine? line = some inv)
    (hl : ∀ options, .literal options ∈ usage.tokens → [] ∉ options)
    (hg : ∀ token ∈ usage.tokens, token.isGreedy = false) :
    (∃ m, usage.attempt inv.items inv.text = .ok m) ↔
      (∃ m, usage.positional (Line.arguments line) = .ok m) ∧
        (Line.lags line)[(Line.arguments line).length]? = some [] := by
  have hb : (∀ (i : Nat) (token : Token), usage.tokens[i]? = some token →
      ∃ b, token.bound usage.pattern (leaveAll ⟨inv.items, inv.text⟩ (usage.tokens.take i)) =
        .ok b) ↔
      ∀ (i : Nat) (token : Token), usage.tokens[i]? = some token →
        ∃ b, token.boundWord usage.pattern (wordAt usage.tokens (Line.arguments line) i) =
          .ok b := by
    refine forall₃_congr fun i token hi => ?_
    obtain ⟨hlt, rfl⟩ := List.getElem?_eq_some_iff.mp hi
    rw [bound_eq_boundWord_wordAt h hl hlt]
    intro hgreedy
    cases (hg _ (List.getElem_mem hlt)).symm.trans hgreedy
  have hn : ¬ usage.tokens.any Token.isGreedy = true := by simpa using hg
  rw [exists_attempt_iff, hb, leaveAll_of_not_greedy _ hg, Line.text_iterate_advance_eq_nil_iff h,
    exists_positional_iff, or_iff_left hn, and_assoc]

/-- A usage that cuts nothing off accepts a line with strays exactly if it accepts the items by
their places, and one of them ends with a character of more bytes than the lag in front of it, with
no stray behind it. So it never does if every item ends with a character of one byte. -/
theorem exists_find_eq_success_iff_lag {α : Type} (handler : α)
    (h : Invocation.ofLine? line = some inv) (hu : ofPattern pattern = .ok usage)
    (hg : ∀ token ∈ usage.tokens, token.isGreedy = false) (hs : ¬ Line.StrayFree line) :
    ((∃ g m, (Usages.mk [(usage, handler)]).find inv.items inv.text = .success g m) ↔
      (∃ m, usage.positional (Line.arguments line) = .ok m) ∧
        ∃ (k : Nat) (w : Word) (lag : Text), (Line.arguments line)[k]? = some w ∧
          (Line.lags line)[k]? = some lag ∧ lag ≠ [] ∧ utf8Size lag < w.text.lastSize ∧
          w.StrayFreeBehind) ∧
    ((∀ item ∈ inv.items, item.lastSize ≤ 1) →
      ∀ g m, (Usages.mk [(usage, handler)]).find inv.items inv.text ≠ .success g m) := by
  have hiff : (∃ g m, (Usages.mk [(usage, handler)]).find inv.items inv.text = .success g m) ↔
      ∃ m, usage.attempt inv.items inv.text = .ok m := by
    simp [Usages.find_singleton_eq_success_iff]
  rw [exists_attempt_iff_positional h (fun _ => nil_notMem_options hu) hg,
    Line.last_lag_eq_nil_iff hs] at hiff
  refine ⟨hiff, ?_⟩
  intro hone g m hm
  obtain ⟨-, k, w, lag, hw, -, hn, hlt, -⟩ := hiff.mp ⟨g, m, hm⟩
  have hmem : w.text ∈ inv.items := by
    rw [Invocation.items_eq h]
    exact List.mem_map_of_mem (List.mem_of_getElem? hw)
  have hle := hone _ hmem
  apply hn
  apply utf8Size_eq_zero_iff.mp
  omega

theorem exists_find_eq_success_iff_lag_quote :
    ∃ usage, ofPattern "<x> <y>".toList = .ok usage ∧ ¬ Line.StrayFree "cmd a \"é".toList ∧
      ∃ g m, (Usages.mk [(usage, ())]).find [['a'], ['é']] "a \"é".toList = .success g m := by
  let usage : Usage := ⟨"<x> <y>".toList, [.param ['x'] false false, .param ['y'] false false]⟩
  have hu : ofPattern "<x> <y>".toList = .ok usage := by decide +kernel
  have hl : Invocation.ofLine? "cmd a \"é".toList =
      some ⟨"cmd".toList, [['a'], ['é']], "a \"é".toList⟩ := by decide +kernel
  have hs : ¬ Line.StrayFree "cmd a \"é".toList := by decide +kernel
  have hw : (Line.arguments "cmd a \"é".toList)[1]? = some ⟨['é'], []⟩ := by decide +kernel
  have hlag : (Line.lags "cmd a \"é".toList)[1]? = some ['"'] := by decide +kernel
  have hp : usage.positional (Line.arguments "cmd a \"é".toList) =
      .ok ⟨usage.pattern, [⟨usage.pattern, ['x'], ['a']⟩, ⟨usage.pattern, ['y'], ['é']⟩], [], []⟩ :=
    by decide +kernel
  have hb : Word.StrayFreeBehind ⟨['é'], []⟩ := by decide +kernel
  obtain ⟨hiff, -⟩ := exists_find_eq_success_iff_lag () hl hu (by decide) hs
  exact ⟨usage, hu, hs, hiff.mpr ⟨⟨_, hp⟩, 1, _, _, hw, hlag, by decide, by decide, hb⟩⟩

/-- A stray backslash is not left over. -/
theorem find_accepts_stray :
    ∃ usage inv m, ofPattern "<x>".toList = .ok usage ∧
      (∀ token ∈ usage.tokens, token.isGreedy = false) ∧
      Invocation.ofLine? "cmd \\é".toList = some inv ∧ ¬ Line.StrayFree "cmd \\é".toList ∧
      (Usages.mk [(usage, ())]).find inv.items inv.text = .success () m := by
  let usage : Usage := ⟨"<x>".toList, [.param ['x'] false false]⟩
  have hu : ofPattern "<x>".toList = .ok usage := by decide +kernel
  have hl : Invocation.ofLine? "cmd \\é".toList =
      some ⟨"cmd".toList, [['é']], "\\é".toList⟩ := by decide +kernel
  have hs : ¬ Line.StrayFree "cmd \\é".toList := by decide +kernel
  have hm : usage.attempt [['é']] "\\é".toList =
      .ok ⟨usage.pattern, [⟨usage.pattern, ['x'], ['é']⟩], [], []⟩ := by decide +kernel
  have hf : (Usages.mk [(usage, ())]).find [['é']] "\\é".toList = .success () _ :=
    Usages.find_singleton_eq_success_iff.mpr ⟨hm, rfl⟩
  exact ⟨usage, _, _, hu, by decide, hl, hs, hf⟩

end Usage

end ChatCommand
