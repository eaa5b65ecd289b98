import ChatCommand.Proofs.Matching.Declared
import ChatCommand.Proofs.Matching.Positional

/-! # What is left of a line

While items are left, the text of a cursor ends with the line from the next item on, whatever stray
characters the line holds. An accepted line is therefore used up. The text that a spread parameter
binds may start too early: it repeats the item before it unless that item makes up for the lag.
-/

namespace ChatCommand

open Text

namespace Line

variable {line : Text} {inv : Invocation} {k : Nat} {w : Word}

theorem onward_suffix_iterate_advance (h : Invocation.ofLine? line = some inv)
    (hw : (arguments line)[k]? = some w) :
    w.onward <:+ (Cursor.advance^[k] ⟨inv.items, inv.text⟩).text := by
  obtain ⟨hk, rfl⟩ := List.getElem?_eq_some_iff.mp hw
  obtain ⟨lag, hl⟩ := exists_lag (Nat.le_of_lt hk)
  rw [iterate_advance h hl, List.drop_eq_getElem_cons hk]
  exact List.suffix_append _ _

theorem text_iterate_advance_succ (h : Invocation.ofLine? line = some inv)
    (hw : (arguments line)[k]? = some w) {lag : Text} (hl : (lags line)[k]? = some lag) :
    (Cursor.advance^[k + 1] ⟨inv.items, inv.text⟩).text =
      Cursor.skip (utf8Size w.text) (lag ++ w.text ++ w.behind) := by
  obtain ⟨hk, rfl⟩ := List.getElem?_eq_some_iff.mp hw
  rw [Function.iterate_succ_apply', iterate_advance h hl, List.drop_eq_getElem_cons hk,
    List.map_cons, Word.lineFrom_cons, Word.onward, ← List.append_assoc]
  rfl

end Line

namespace Usage

variable {line : Text} {inv : Invocation} {usage : Usage} {m : Matched}

/-- No item is overtaken by the text, and none is left over by a usage that accepts. -/
theorem unconsumed_suffix_text {α : Type} (h : Invocation.ofLine? line = some inv)
    (usages : Usages α) :
    (∀ entry ∈ usages.entries, ∀ pre post, entry.1.tokens = pre ++ post →
      (∀ token ∈ pre, token.isGreedy = false) →
      ∀ bound c, takeAll entry.1.pattern pre ⟨inv.items, inv.text⟩ = .ok (bound, c) →
        c.items = ((Line.arguments line).drop pre.length).map Word.text ∧
        ∀ w, (Line.arguments line)[pre.length]? = some w → w.onward <:+ c.text) ∧
      ∀ handler m, usages.find inv.items inv.text = .success handler m →
        m.rest = [] ∧ m.remaining = [] := by
  have hc : ∀ tokens : List Token, (∀ token ∈ tokens, token.isGreedy = false) →
      (leaveAll ⟨inv.items, inv.text⟩ tokens).items =
          ((Line.arguments line).drop tokens.length).map Word.text ∧
        ∀ w, (Line.arguments line)[tokens.length]? = some w →
          w.onward <:+ (leaveAll ⟨inv.items, inv.text⟩ tokens).text := by
    intro tokens hg
    rw [leaveAll_of_not_greedy _ hg, Cursor.iterate_advance_items, Invocation.items_eq h,
      List.map_drop, ← Invocation.items_eq h]
    exact ⟨rfl, fun w => Line.onward_suffix_iterate_advance h⟩
  constructor
  · intro entry _ pre post _ hg bound c hr
    rw [of_takeAll hr]
    exact hc pre hg
  · intro handler m hf
    obtain ⟨usage, -, hm⟩ := Usages.exists_of_find hf
    obtain ⟨bound, -, ht, rfl⟩ := of_attempt hm
    refine ⟨?_, rfl⟩
    by_cases hg : ∃ token ∈ usage.tokens, token.isGreedy = true
    · rw [leaveAll_of_greedy _ hg]
      rfl
    · obtain ⟨hi, hs⟩ := hc usage.tokens (by simpa using hg)
      rw [hi, List.map_eq_nil_iff, List.drop_eq_nil_iff]
      by_contra hlt
      have hlt' := Nat.lt_of_not_le hlt
      have hsuf := hs _ (List.getElem?_eq_getElem hlt')
      rw [ht, List.suffix_nil] at hsuf
      exact (Line.tight_of_mem_arguments (List.getElem_mem hlt')).ne_nil
        (List.append_eq_nil_iff.mp hsuf).1

theorem unconsumed_suffix_text_stray :
    takeAll "<x> [y]".toList [.param ['x'] false false] ⟨[['a'], ['b']], "\\a b".toList⟩ =
        .ok ([(['x'], ['a'])], ⟨[['b']], "a b".toList⟩) ∧
      ['b'] <:+ "a b".toList := by
  have hl : Invocation.ofLine? "cmd \\a b".toList =
      some ⟨"cmd".toList, [['a'], ['b']], "\\a b".toList⟩ := by decide +kernel
  have hr : takeAll "<x> [y]".toList [.param ['x'] false false]
      ⟨[['a'], ['b']], "\\a b".toList⟩ =
      .ok ([(['x'], ['a'])], ⟨[['b']], "a b".toList⟩) := by decide +kernel
  have hw : (Line.arguments "cmd \\a b".toList)[1]? = some ⟨['b'], []⟩ := by decide +kernel
  obtain ⟨hpre, -⟩ := unconsumed_suffix_text hl (Usages.mk [(⟨"<x> [y]".toList,
    [.param ['x'] false false, .param ['y'] true false]⟩, ())])
  obtain ⟨-, hs⟩ := hpre _ List.mem_cons_self [_] [_] rfl (by simp [Token.isGreedy]) _ _ hr
  exact ⟨hr, hs _ hw⟩

/-- A spread parameter behind `k + 1` tokens binds the line behind the last of their items exactly
if the lag in front of that item is smaller than its last character. Otherwise it repeats at least
that character. -/
theorem spread_eq_behind_iff (h : Invocation.ofLine? line = some inv)
    (hm : usage.attempt inv.items inv.text = .ok m) {pre post : List Token} {name : Text}
    {optional : Bool} (ht : usage.tokens = pre ++ .param name optional true :: post)
    (hg : ∀ token ∈ pre, token.isGreedy = false) {k : Nat} (hk : pre.length = k + 1) {w : Word}
    (hw : (Line.arguments line)[k]? = some w) :
    ∃ lag arg, (Line.lags line)[k]? = some lag ∧ m.args[k + 1]? = some arg ∧ arg.name = name ∧
      (arg.text = trimStart w.behind ↔ utf8Size lag < w.text.lastSize) ∧
      (¬ utf8Size lag < w.text.lastSize →
        ∃ init last, w.text = init ++ [last] ∧ last :: w.behind <:+ arg.text) ∧
      (Line.StrayFree line → arg.text = trimStart w.behind) := by
  obtain ⟨hlt, -⟩ := List.getElem?_eq_some_iff.mp hw
  have htight := Line.tight_of_mem_arguments (List.mem_of_getElem? hw)
  obtain ⟨lag, hl⟩ := Line.exists_lag (Nat.le_of_lt hlt)
  obtain ⟨before, b, after, hr, hb, hargs⟩ := of_attempt_split hm ht
  have hlen := length_of_takeAll hr hg
  obtain rfl := Token.of_bound_param hb
  have htext : (leaveAll ⟨inv.items, inv.text⟩ pre).text =
      Cursor.skip (utf8Size w.text) (lag ++ w.text ++ w.behind) := by
    rw [leaveAll_of_not_greedy _ hg, hk, Line.text_iterate_advance_succ h hw hl]
  have hiff := Cursor.skip_word_eq_trimStart_iff lag w.behind htight
  refine ⟨lag, ⟨usage.pattern, name, Cursor.skip (utf8Size w.text) (lag ++ w.text ++ w.behind)⟩,
    hl, ?_, rfl, hiff, ?_, ?_⟩
  · rw [hargs, List.getElem?_map, List.getElem?_append_right (by omega), hlen, hk, Nat.sub_self,
      ← htext]
    rfl
  · intro hlag
    obtain ⟨init, last, hlast, hsize, hskip⟩ := Cursor.skip_word lag w.behind htight
    refine ⟨init, last, hlast, ?_⟩
    rw [hskip, if_neg (by rwa [hsize])]
    exact List.suffix_append _ _
  · intro hs
    apply hiff.mpr
    have hnil : lag = [] := Piece.lags_of_blank hs lag (List.mem_of_getElem? hl)
    obtain ⟨init, last, -, hsize, -⟩ := Cursor.skip_word lag w.behind htight
    have := last.utf8Size_pos
    simp [hnil]
    omega

theorem spread_behind_two_bytes :
    ∃ usage m arg, ofPattern "<x> <y...>".toList = .ok usage ∧
      usage.attempt [['é'], ['b']] "\\é b".toList = .ok m ∧ m.args[1]? = some arg ∧
      arg.text = trimStart " b".toList := by
  let usage : Usage := ⟨"<x> <y...>".toList, [.param ['x'] false false, .param ['y'] false true]⟩
  have hu : ofPattern "<x> <y...>".toList = .ok usage := by decide +kernel
  have hl : Invocation.ofLine? "cmd \\é b".toList =
      some ⟨"cmd".toList, [['é'], ['b']], "\\é b".toList⟩ := by decide +kernel
  have hm : usage.attempt [['é'], ['b']] "\\é b".toList =
      .ok ⟨usage.pattern,
        [⟨usage.pattern, ['x'], ['é']⟩, ⟨usage.pattern, ['y'], ['b']⟩], [], []⟩ := by
    decide +kernel
  have ht : usage.tokens = [.param ['x'] false false] ++ .param ['y'] false true :: [] := rfl
  have hw : (Line.arguments "cmd \\é b".toList)[0]? = some ⟨['é'], " b".toList⟩ := by
    decide +kernel
  obtain ⟨lag, arg, hlag, harg, -, hiff, -⟩ :=
    spread_eq_behind_iff hl hm ht (by simp [Token.isGreedy]) rfl hw
  have hlag' : (Line.lags "cmd \\é b".toList)[0]? = some ['\\'] := by decide +kernel
  obtain rfl := Option.some.inj (hlag'.symm.trans hlag)
  exact ⟨usage, _, arg, hu, hm, harg, hiff.mpr (by decide +kernel)⟩

/-- A stray backslash makes the spread parameter repeat the item before it. -/
theorem spread_repeats_item :
    Invocation.ofLine? "cmd \\a b".toList =
        some ⟨"cmd".toList, [['a'], ['b']], "\\a b".toList⟩ ∧
      ofPattern "<x> <y...>".toList =
        .ok ⟨"<x> <y...>".toList, [.param ['x'] false false, .param ['y'] false true]⟩ ∧
      (Usage.mk "<x> <y...>".toList [.param ['x'] false false, .param ['y'] false true]).attempt
          [['a'], ['b']] "\\a b".toList =
        .ok ⟨"<x> <y...>".toList, [⟨"<x> <y...>".toList, ['x'], ['a']⟩,
          ⟨"<x> <y...>".toList, ['y'], "a b".toList⟩], [], []⟩ ∧
      (Line.arguments "cmd \\a b".toList)[0]? = some ⟨['a'], " b".toList⟩ ∧
      "a b".toList ≠ trimStart " b".toList := by
  decide +kernel

end Usage

end ChatCommand
