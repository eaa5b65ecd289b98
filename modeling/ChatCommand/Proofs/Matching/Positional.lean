import ChatCommand.Matching.Choice
import ChatCommand.Proofs.Matching.Lag
import ChatCommand.Proofs.Matching.Run
import ChatCommand.Proofs.Usage.Compiled

/-! # Matching by position

If only blanks stand between the arguments of a line, its text adds nothing to its items. Matching
then needs the arguments alone: a token takes the argument at its own place, with the line from
there on if it is a spread parameter, and greedy tokens leave nothing to later ones.
-/

namespace ChatCommand

open Text

namespace Piece

theorem lags_of_blank {ps : List Piece} (h : ∀ c ∈ gaps ps, isBlank c = true) :
    ∀ l ∈ lags [] ps, l = [] := by
  induction ps with
  | nil => simp
  | cons p ps ih =>
    cases hi : p.item? with
    | none =>
      obtain ⟨c, rfl⟩ := eq_gap_of_item? hi
      obtain ⟨hc, hps⟩ := List.forall_mem_cons.mp h
      have ht : trimStart [c] = [] := by simp [trimStart, hc]
      rw [lags_cons_gap, List.nil_append, ht]
      exact ih hps
    | some w =>
      have hs : Cursor.skip (utf8Size w) w = [] := by
        simpa [Cursor.skip] using congrArg trimStart (Cursor.dropBytes_utf8Size_append w [])
      rw [gaps_cons_word hi] at h
      rw [lags_cons_word hi, List.nil_append, hs]
      exact List.forall_mem_cons.mpr ⟨rfl, ih h⟩

end Piece

namespace Line

variable {line : Text} {inv : Invocation}

/-- On a stray-free line the text of the cursor always starts with its next item. -/
theorem iterate_advance_of_strayFree (h : Invocation.ofLine? line = some inv)
    (hs : StrayFree line) (i : Nat) :
    Cursor.advance^[i] ⟨inv.items, inv.text⟩ =
      ⟨((arguments line).drop i).map Word.text, Word.lineFrom ((arguments line).drop i)⟩ := by
  have hle : ∀ j ≤ (arguments line).length, Cursor.advance^[j] ⟨inv.items, inv.text⟩ =
      ⟨((arguments line).drop j).map Word.text, Word.lineFrom ((arguments line).drop j)⟩ := by
    intro j hj
    obtain ⟨lag, hl⟩ := exists_lag hj
    obtain rfl := Piece.lags_of_blank hs lag (List.mem_of_getElem? hl)
    exact iterate_advance h hl
  rcases Nat.le_total i (arguments line).length with hi | hi
  · exact hle i hi
  · have hn : Cursor.advance^[(arguments line).length] ⟨inv.items, inv.text⟩ = .clear := by
      rw [hle _ (Nat.le_refl _), List.drop_length]
      rfl
    obtain ⟨j, rfl⟩ := Nat.exists_eq_add_of_le' hi
    rw [Function.iterate_add_apply, hn, Function.iterate_fixed Cursor.advance_clear,
      List.drop_of_length_le hi]
    rfl

end Line

namespace Usage

def Token.boundWord (pattern : Text) (word? : Option Word) :
    Token → Except Failure (Option (Text × Text))
  | literal options =>
    match word? with
    | some word =>
      let option := lowercase word.text
      if option ∈ options then .ok (some (option, option))
      else .error (.unmatchedOption pattern option)
    | none => .error (.unmatchedOption pattern [])
  | flag name =>
    .ok (some (name, if word?.any (isFlag name ·.text) then "true".toList else "false".toList))
  | param name optional spread =>
    match word? with
    | some word => .ok (some (name, if spread then word.onward else word.text))
    | none =>
      if optional then .ok (some (name, [])) else .error (.unmatchedParameter pattern name)
  | ellipsis => .ok none

/-- The argument for the token at place `i`: the one at the same place, unless a greedy token comes
before. -/
def wordAt (tokens : List Token) (words : List Word) (i : Nat) : Option Word :=
  if (tokens.take i).any Token.isGreedy then none else words[i]?

def positional (usage : Usage) (words : List Word) : Except Failure Matched := do
  let bound ← (usage.tokens.mapIdx fun i token =>
    token.boundWord usage.pattern (wordAt usage.tokens words i)).mapM id
  if usage.tokens.length < words.length ∧ ¬ usage.tokens.any Token.isGreedy then
    .error (.invalidArguments usage.pattern)
  else
    return ⟨usage.pattern, bound.reduceOption.map fun p => ⟨usage.pattern, p.1, p.2⟩, [], []⟩

theorem exists_positional_iff {usage : Usage} {words : List Word} :
    (∃ m, usage.positional words = .ok m) ↔
      (∀ (i : Nat) (token : Token), usage.tokens[i]? = some token →
        ∃ b, token.boundWord usage.pattern (wordAt usage.tokens words i) = .ok b) ∧
      (words.length ≤ usage.tokens.length ∨ usage.tokens.any Token.isGreedy) := by
  rw [← exists_mapM_mapIdx_eq_ok_iff, positional]
  constructor
  · rintro ⟨m, h⟩
    obtain ⟨bs, hbs, h⟩ := bind_eq_ok_iff.mp h
    refine ⟨⟨bs, hbs⟩, ?_⟩
    by_contra hn
    obtain ⟨hlt, hg⟩ := not_or.mp hn
    rw [if_pos ⟨Nat.lt_of_not_le hlt, hg⟩] at h
    cases h
  · rintro ⟨⟨bs, hbs⟩, hl⟩
    rw [hbs, ok_bind, if_neg fun h => hl.elim (Nat.not_le.mpr h.1) h.2]
    exact ⟨_, rfl⟩

theorem bound_eq_boundWord {pattern : Text} {c : Cursor} {word? : Option Word} {token : Token}
    (hw : ∀ word ∈ word?, word.text ≠ []) (hi : c.item = (word?.map Word.text).getD [])
    (ht : token.isGreedy = true → c.text = (word?.map Word.onward).getD [])
    (hl : ∀ options, token = .literal options → [] ∉ options) :
    token.bound pattern c = token.boundWord pattern word? := by
  cases token with
  | literal options =>
    rw [Token.bound_literal, hi]
    cases word? with
    | none => exact if_neg (hl options rfl)
    | some word => rfl
  | flag name =>
    rw [Token.bound_flag, hi]
    cases word? <;> rfl
  | param name optional spread =>
    have hv : (if spread then c.text else c.item) =
        (word?.map fun word => if spread then word.onward else word.text).getD [] := by
      cases spread with
      | false => exact hi
      | true => exact ht rfl
    rw [Token.bound_param, hv]
    cases word? with
    | none => cases optional <;> rfl
    | some word =>
      have hn : (if spread then word.onward else word.text) ≠ [] := by
        have := hw word rfl
        cases spread <;> simp [this, Word.onward]
      exact if_neg fun h => hn h.1
  | ellipsis => rfl

variable {line : Text} {inv : Invocation} {usage : Usage}

theorem item_leaveAll_eq_wordAt (h : Invocation.ofLine? line = some inv) (tokens : List Token)
    {i : Nat} (hi : i ≤ tokens.length) :
    (leaveAll ⟨inv.items, inv.text⟩ (tokens.take i)).item =
      ((wordAt tokens (Line.arguments line) i).map Word.text).getD [] := by
  rw [item_leaveAll_take _ _ hi, wordAt, Invocation.items_eq h, List.getElem?_map]
  split <;> rfl

theorem text_leaveAll_eq_wordAt (h : Invocation.ofLine? line = some inv) (hs : Line.StrayFree line)
    (tokens : List Token) {i : Nat} (hi : i ≤ tokens.length) :
    (leaveAll ⟨inv.items, inv.text⟩ (tokens.take i)).text =
      ((wordAt tokens (Line.arguments line) i).map Word.onward).getD [] := by
  by_cases hg : (tokens.take i).any Token.isGreedy
  · rw [leaveAll_of_greedy _ (List.any_eq_true.mp hg), wordAt, if_pos hg]
    rfl
  · have hn : ∀ token ∈ tokens.take i, token.isGreedy = false := by simpa using hg
    rw [leaveAll_of_not_greedy _ hn, List.length_take_of_le hi,
      Line.iterate_advance_of_strayFree h hs, wordAt, if_neg hg]
    simp [Word.lineFrom]

theorem bound_eq_boundWord_wordAt (h : Invocation.ofLine? line = some inv)
    (hl : ∀ options, .literal options ∈ usage.tokens → [] ∉ options) {i : Nat}
    (hi : i < usage.tokens.length)
    (ht : usage.tokens[i].isGreedy = true →
      (leaveAll ⟨inv.items, inv.text⟩ (usage.tokens.take i)).text =
        ((wordAt usage.tokens (Line.arguments line) i).map Word.onward).getD []) :
    usage.tokens[i].bound usage.pattern (leaveAll ⟨inv.items, inv.text⟩ (usage.tokens.take i)) =
      usage.tokens[i].boundWord usage.pattern (wordAt usage.tokens (Line.arguments line) i) := by
  refine bound_eq_boundWord ?_ (item_leaveAll_eq_wordAt h usage.tokens (Nat.le_of_lt hi)) ht
    fun options ho => hl options (ho ▸ List.getElem_mem hi)
  intro word hw
  have hmem : word ∈ Line.arguments line := by
    rw [wordAt] at hw
    split at hw
    · simp at hw
    · exact List.mem_of_getElem? hw
  exact (Line.tight_of_mem_arguments hmem).ne_nil

theorem attempt_eq_positional (h : Invocation.ofLine? line = some inv) (hs : Line.StrayFree line)
    (hl : ∀ options, .literal options ∈ usage.tokens → [] ∉ options) :
    usage.attempt inv.items inv.text = usage.positional (Line.arguments line) := by
  have hb : (usage.tokens.mapIdx fun i token => token.bound usage.pattern
      (leaveAll ⟨inv.items, inv.text⟩ (usage.tokens.take i))) =
      usage.tokens.mapIdx fun i token => token.boundWord usage.pattern
        (wordAt usage.tokens (Line.arguments line) i) := by
    apply List.mapIdx_eq_mapIdx_iff.mpr
    intro i hi
    apply bound_eq_boundWord_wordAt h hl hi
    intro _
    exact text_leaveAll_eq_wordAt h hs usage.tokens (Nat.le_of_lt hi)
  rw [attempt, positional, takeAll_eq, hb]
  cases (usage.tokens.mapIdx fun i token => token.boundWord usage.pattern
    (wordAt usage.tokens (Line.arguments line) i)).mapM id with
  | error e => rfl
  | ok bs =>
    rw [ok_bind]
    by_cases hg : usage.tokens.any Token.isGreedy
    · have hc := leaveAll_of_greedy ⟨inv.items, inv.text⟩ (List.any_eq_true.mp hg)
      rw [if_neg (by simp [hg])]
      simp [hc, Cursor.clear]
    · have hn : ∀ token ∈ usage.tokens, token.isGreedy = false := by simpa using hg
      have hc := leaveAll_of_not_greedy ⟨inv.items, inv.text⟩ hn
      rw [Line.iterate_advance_of_strayFree h hs] at hc
      rcases Nat.lt_or_ge usage.tokens.length (Line.arguments line).length with hlt | hge
      · have hne : (Line.arguments line)[usage.tokens.length].onward ≠ [] := by
          have := (Line.tight_of_mem_arguments (List.getElem_mem hlt)).ne_nil
          simp [Word.onward, this]
        rw [List.drop_eq_getElem_cons hlt, Word.lineFrom_cons] at hc
        rw [if_pos ⟨hlt, by simp [hg]⟩]
        simp [hc, hne]
      · rw [if_neg (by omega)]
        simp [hc, List.drop_of_length_le hge]

/-- On a stray-free line an item is matched by its place alone. A spread parameter binds the line
from its item on, and arguments are left over if there are more of them than tokens and no token is
greedy. -/
theorem find_eq_positional {α : Type} {pattern : Text} (handler : α)
    (h : Invocation.ofLine? line = some inv) (hs : Line.StrayFree line)
    (hu : ofPattern pattern = .ok usage) :
    inv.items = (Line.arguments line).map Word.text ∧
      (∀ word ∈ Line.arguments line, word.onward <:+ line) ∧
      (Usages.mk [(usage, handler)]).find inv.items inv.text =
        match usage.positional (Line.arguments line) with
        | .ok m => .success handler m
        | .error failure => .failure failure := by
  refine ⟨Invocation.items_eq h, fun _ => Line.onward_suffix, ?_⟩
  have he := attempt_eq_positional h hs fun options ho => nil_notMem_options hu ho
  cases hp : usage.positional (Line.arguments line) with
  | ok m => simp [Usages.find, Usages.findFrom, he, hp]
  | error failure => simp [Usages.find, Usages.findFrom, he, hp]

theorem find_eq_positional_adjacent :
    ∃ usage, ofPattern "<x> [y...]".toList = .ok usage ∧
      (Usages.mk [(usage, ())]).find ["\"a b\"".toList, "é".toList, "c".toList]
          "\"a b\"é c ".toList =
        .success () ⟨usage.pattern, [⟨usage.pattern, "x".toList, "\"a b\"".toList⟩,
          ⟨usage.pattern, "y".toList, "é c ".toList⟩], [], []⟩ := by
  let usage : Usage := ⟨"<x> [y...]".toList,
    [.param "x".toList false false, .param "y".toList true true]⟩
  have hu : ofPattern "<x> [y...]".toList = .ok usage := by decide +kernel
  have hl : Invocation.ofLine? "say \"a b\"é c ".toList = some ⟨"say".toList,
      ["\"a b\"".toList, "é".toList, "c".toList], "\"a b\"é c ".toList⟩ := by decide +kernel
  have hs : Line.StrayFree "say \"a b\"é c ".toList := by decide +kernel
  have hp : usage.positional (Line.arguments "say \"a b\"é c ".toList) =
      .ok ⟨usage.pattern, [⟨usage.pattern, "x".toList, "\"a b\"".toList⟩,
        ⟨usage.pattern, "y".toList, "é c ".toList⟩], [], []⟩ := by decide +kernel
  obtain ⟨-, -, hf⟩ := find_eq_positional () hl hs hu
  rw [hp] at hf
  exact ⟨usage, hu, hf⟩

end Usage

end ChatCommand
