import Mathlib.Data.List.Infix
import Mathlib.Data.Nat.Find
import ChatCommand.Proofs.Matching.Run
import ChatCommand.Proofs.Usage.Compiled

/-! # Attempts by places

What a token sees follows from its place: up to the first spread parameter or ellipsis, which cuts
the input off, the item at the same place and the text behind the items before it. An attempt fails
at the first place whose token fails on what it sees, or else if text is left and nothing cut it
off. The items and the text need not belong together.
-/

namespace ChatCommand

open Text

namespace Text

/-- The least number of characters that have `n` bytes, or that have all bytes of the text. -/
def charsWith (n : Nat) (t : Text) : Nat :=
  t.inits.findIdx fun s => min n (utf8Size t) ≤ utf8Size s

def behindItem (t item : Text) : Text := trimStart (t.drop (charsWith (utf8Size item) t))

theorem charsWith_zero (t : Text) : charsWith 0 t = 0 := by
  cases t <;> simp [charsWith, List.findIdx_cons]

theorem charsWith_cons (n : Nat) (c : Char) (t : Text) :
    charsWith (n + 1) (c :: t) = charsWith (n + 1 - c.utf8Size) t + 1 := by
  have hc := c.utf8Size_pos
  have hmin : ∀ s : Text, min (n + 1) (utf8Size (c :: t)) ≤ utf8Size (c :: s) ↔
      min (n + 1 - c.utf8Size) (utf8Size t) ≤ utf8Size s := by
    intro s
    simp only [utf8Size_cons]
    omega
  have hnil : ¬ min (n + 1) (utf8Size (c :: t)) ≤ utf8Size [] := by
    simp only [utf8Size_cons, utf8Size_nil]
    omega
  simp only [charsWith, List.inits_cons, List.findIdx_cons, List.findIdx_map, Function.comp_def,
    hmin, hnil, decide_false, cond_false]

end Text

namespace Cursor

theorem dropBytes_eq_drop (n : Nat) (t : Text) : dropBytes n t = t.drop (charsWith n t) := by
  induction t generalizing n with
  | nil => cases n <;> simp [dropBytes]
  | cons c t ih =>
    cases n with
    | zero => rw [dropBytes, charsWith_zero, List.drop_zero]
    | succ n => rw [dropBytes, charsWith_cons, List.drop_succ_cons, ih]

theorem skip_eq_behindItem (item t : Text) : skip (utf8Size item) t = t.behindItem item := by
  rw [skip, dropBytes_eq_drop, behindItem]

theorem iterate_advance_eq (n : Nat) (items : List Text) (text : Text) :
    advance^[n] ⟨items, text⟩ = ⟨items.drop n, (items.take n).foldl behindItem text⟩ := by
  induction n generalizing items text with
  | zero => rfl
  | succ n ih =>
    rw [Function.iterate_succ_apply]
    cases items with
    | nil => exact (ih [] text).trans (by simp)
    | cons item items =>
      have ha : advance ⟨item :: items, text⟩ = ⟨items, text.behindItem item⟩ := by
        simp only [advance, skip_eq_behindItem]
      rw [ha, ih, List.drop_succ_cons, List.take_succ_cons, List.foldl_cons]

end Cursor

namespace Usage

def Token.failure? (pattern item text : Text) : Token → Option Failure
  | literal options =>
    let word := lowercase item
    if word ∈ options then none else some ⟨pattern, [], word, .unmatched, .option, none⟩
  | flag _ => none
  | param name optional spread =>
    let value := if spread then text else item
    if value = [] ∧ !optional then some ⟨pattern, name, [], .unmatched, .parameter, none⟩ else none
  | ellipsis => none

def Token.binding? (item text : Text) : Token → Option (Text × Text)
  | literal _ => some (lowercase item, lowercase item)
  | flag name =>
    let isSet := item.head? = some '-' ∧ lowercase item.tail = name
    some (name, if isSet then "true".toList else "false".toList)
  | param name _ spread => some (name, if spread then text else item)
  | ellipsis => none

theorem isFlag_iff {name item : Text} :
    isFlag name item = true ↔ item.head? = some '-' ∧ lowercase item.tail = name := by
  unfold isFlag
  split
  · simp
  · next h =>
    cases item with
    | nil => simp
    | cons c word =>
      have hc : c ≠ '-' := by
        rintro rfl
        exact h word rfl
      simp [hc]

/-- A token that is not greedy looks at the item only, a greedy one at the text only. -/
theorem Token.bound_eq {pattern item text : Text} {c : Cursor} {token : Token}
    (hi : token.isGreedy = false → c.item = item) (ht : token.isGreedy = true → c.text = text) :
    token.bound pattern c = match token.failure? pattern item text with
      | some failure => .error failure
      | none => .ok (token.binding? item text) := by
  cases token with
  | literal options =>
    rw [bound_literal, hi rfl, failure?]
    by_cases hm : lowercase item ∈ options
    · simp [hm, binding?]
    · simp [hm, Failure.unmatchedOption]
  | flag name =>
    rw [bound_flag, hi rfl]
    simp only [failure?, binding?, isFlag_iff]
  | param name optional spread =>
    have hv : (if spread then c.text else c.item) = if spread then text else item := by
      cases spread with
      | false => exact hi rfl
      | true => exact ht rfl
    rw [bound_param, hv, failure?]
    by_cases hn : (if spread then text else item) = [] ∧ !optional
    · simp only [hn]
      rfl
    · simp only [hn]
      rfl
  | ellipsis => rfl

/-- The place of the first spread parameter or ellipsis, or the number of tokens. -/
def cut (usage : Usage) : Nat := usage.tokens.findIdx Token.isGreedy

section Places

variable (usage : Usage) (items : List Text) (text : Text) (i : Nat)

def itemAt : Text := if i < usage.cut then items[i]?.getD [] else []

def textAt : Text := if i ≤ usage.cut then (items.take i).foldl behindItem text else []

def failureAt : Option Failure :=
  usage.tokens[i]?.bind fun token =>
    token.failure? usage.pattern (usage.itemAt items i) (usage.textAt items text i)

def bindingAt : Option (Text × Text) :=
  usage.tokens[i]?.bind fun token =>
    token.binding? (usage.itemAt items i) (usage.textAt items text i)

def bindings : List (Text × Text) :=
  (List.range usage.tokens.length).filterMap (usage.bindingAt items text)

end Places

section Attempts

variable {usage : Usage} {items : List Text} {text : Text}

theorem any_take_isGreedy_iff {tokens : List Token} {i : Nat} (hi : i ≤ tokens.length) :
    (tokens.take i).any Token.isGreedy = true ↔ tokens.findIdx Token.isGreedy < i := by
  rw [List.any_eq_true, ← List.findIdx_lt_length, List.findIdx_take, List.length_take_of_le hi]
  omega

/-- Up to the cut one item is consumed for each token, and nothing is left behind it. -/
theorem leaveAll_take_eq {i : Nat} (hi : i ≤ usage.tokens.length) :
    leaveAll ⟨items, text⟩ (usage.tokens.take i) =
      if i ≤ usage.cut then ⟨items.drop i, (items.take i).foldl behindItem text⟩ else .clear := by
  have hg := any_take_isGreedy_iff hi
  split
  · next hc =>
    have hn : ¬ (usage.tokens.take i).any Token.isGreedy = true := by
      rw [hg]
      exact Nat.not_lt.mpr hc
    rw [leaveAll_of_not_greedy _ (by simpa using hn), List.length_take_of_le hi,
      Cursor.iterate_advance_eq]
  · next hc =>
    exact leaveAll_of_greedy _ (List.any_eq_true.mp (hg.mpr (Nat.lt_of_not_le hc)))

theorem text_leaveAll_take {i : Nat} (hi : i ≤ usage.tokens.length) :
    (leaveAll ⟨items, text⟩ (usage.tokens.take i)).text = usage.textAt items text i := by
  rw [leaveAll_take_eq hi, textAt]
  split <;> rfl

theorem item_leaveAll_take_eq_itemAt {i : Nat} (hi : i < usage.tokens.length)
    (hg : usage.tokens[i].isGreedy = false) :
    (leaveAll ⟨items, text⟩ (usage.tokens.take i)).item = usage.itemAt items i := by
  -- the token at the cut is greedy, so this one stands in front of the cut or behind it
  have hne : usage.tokens.findIdx Token.isGreedy ≠ i := by
    rintro rfl
    simp [List.findIdx_getElem (w := hi)] at hg
  have hle : i ≤ usage.cut ↔ i < usage.cut := by
    rw [cut]
    omega
  rw [leaveAll_take_eq (Nat.le_of_lt hi), itemAt]
  simp only [hle]
  split
  · rw [Cursor.item, List.head?_drop]
  · rfl

theorem getElem?_run (i : Nat) :
    (usage.tokens.mapIdx fun i token => token.bound usage.pattern
      (leaveAll ⟨items, text⟩ (usage.tokens.take i)))[i]? =
    if i < usage.tokens.length then some (match usage.failureAt items text i with
      | some failure => .error failure
      | none => .ok (usage.bindingAt items text i)) else none := by
  rw [List.getElem?_mapIdx]
  split
  · next hi =>
    have ht := List.getElem?_eq_getElem hi
    rw [failureAt, bindingAt, ht, Option.map_some, Option.bind_some, Option.bind_some,
      Token.bound_eq (item_leaveAll_take_eq_itemAt hi)
        fun _ => text_leaveAll_take (Nat.le_of_lt hi)]
  · next hi => rw [List.getElem?_eq_none (Nat.le_of_not_lt hi), Option.map_none]

theorem mapM_run_eq_ok (h : ∀ i, usage.failureAt items text i = none) :
    (usage.tokens.mapIdx fun i token => token.bound usage.pattern
      (leaveAll ⟨items, text⟩ (usage.tokens.take i))).mapM id =
    .ok ((List.range usage.tokens.length).map (usage.bindingAt items text)) := by
  have he : (usage.tokens.mapIdx fun i token => token.bound usage.pattern
      (leaveAll ⟨items, text⟩ (usage.tokens.take i))) =
      (List.range usage.tokens.length).map fun i => .ok (usage.bindingAt items text i) := by
    apply List.ext_getElem?
    intro i
    rw [getElem?_run, h i, List.getElem?_map]
    by_cases hi : i < usage.tokens.length
    · simp [hi]
    · simp [hi]
  rw [he, mapM_eq_ok_iff, List.forall₂_map_left_iff, List.forall₂_map_right_iff]
  exact List.forall₂_same.mpr fun _ _ => rfl

theorem lt_length_of_failureAt {i : Nat} {failure : Failure}
    (h : usage.failureAt items text i = some failure) : i < usage.tokens.length := by
  obtain ⟨token, ht, -⟩ := Option.bind_eq_some_iff.mp h
  exact (List.getElem?_eq_some_iff.mp ht).1

theorem mapM_run_eq_error_iff {failure : Failure} :
    (usage.tokens.mapIdx fun i token => token.bound usage.pattern
      (leaveAll ⟨items, text⟩ (usage.tokens.take i))).mapM id = .error failure ↔
    ∃ i, usage.failureAt items text i = some failure ∧
      ∀ j < i, usage.failureAt items text j = none := by
  have hrun : ∀ (i : Nat) (f : Failure), (usage.tokens.mapIdx fun i token =>
      token.bound usage.pattern (leaveAll ⟨items, text⟩ (usage.tokens.take i)))[i]? =
        some (.error f) ↔ usage.failureAt items text i = some f := by
    intro i f
    rw [getElem?_run]
    constructor
    · intro h
      split at h
      · split at h
        · next f' hf => simpa [hf] using h
        · simp at h
      · cases h
    · intro h
      rw [if_pos (lt_length_of_failureAt h), h]
  simp only [mapM_id_eq_error_iff_getElem?, ne_eq, hrun, Option.eq_none_iff_forall_ne_some]

def itemsLeft (usage : Usage) (items : List Text) : List Text :=
  if usage.cut = usage.tokens.length then items.drop usage.tokens.length else []

def textLeft (usage : Usage) (items : List Text) (text : Text) : Text :=
  if usage.cut = usage.tokens.length then
    (items.take usage.tokens.length).foldl behindItem text else []

theorem leaveAll_eq_left : leaveAll ⟨items, text⟩ usage.tokens =
    ⟨usage.itemsLeft items, usage.textLeft items text⟩ := by
  have hle : usage.tokens.length ≤ usage.cut ↔ usage.cut = usage.tokens.length := by
    have : usage.cut ≤ usage.tokens.length := List.findIdx_le_length
    omega
  have h : leaveAll ⟨items, text⟩ (usage.tokens.take usage.tokens.length) = _ :=
    leaveAll_take_eq (Nat.le_refl _)
  rw [List.take_length] at h
  rw [h, itemsLeft, textLeft]
  simp only [hle]
  split <;> rfl

theorem attempt_eq_of_failureAt {failure : Failure} {i : Nat}
    (hi : usage.failureAt items text i = some failure)
    (hj : ∀ j < i, usage.failureAt items text j = none) :
    usage.attempt items text = .error failure := by
  rw [attempt, takeAll_eq, mapM_run_eq_error_iff.mpr ⟨i, hi, hj⟩]
  rfl

theorem attempt_eq_of_forall (h : ∀ i, usage.failureAt items text i = none) :
    usage.attempt items text = if usage.textLeft items text = [] then
      .ok ⟨usage.pattern, (usage.bindings items text).map fun p => ⟨usage.pattern, p.1, p.2⟩,
        usage.itemsLeft items, []⟩
      else .error ⟨usage.pattern, [], [], .invalid, .arguments, none⟩ := by
  rw [attempt, takeAll_eq, mapM_run_eq_ok h, leaveAll_eq_left]
  simp only [Except.map_ok, ok_bind, List.reduceOption, bindings]
  split
  · next ht => simp [ht, List.filterMap_map]; rfl
  · rfl

theorem exists_first_failure (h : ¬ ∀ i, usage.failureAt items text i = none) :
    ∃ i failure, usage.failureAt items text i = some failure ∧
      ∀ j < i, usage.failureAt items text j = none := by
  have hn : ∃ i, usage.failureAt items text i ≠ none := not_forall.mp h
  obtain ⟨failure, hf⟩ := Option.ne_none_iff_exists'.mp (Nat.find_spec hn)
  exact ⟨Nat.find hn, failure, hf, fun j hj => not_not.mp (Nat.find_min hn hj)⟩

end Attempts

theorem Token.of_failure? {pattern item text : Text} {token : Token} {failure : Failure}
    (h : token.failure? pattern item text = some failure) :
    failure.usage = pattern ∧ failure.item = none := by
  cases token with
  | literal options =>
    obtain ⟨-, ⟨⟩⟩ := Option.ite_none_left_eq_some.mp h
    exact ⟨rfl, rfl⟩
  | flag name => cases h
  | param name optional spread =>
    obtain ⟨-, ⟨⟩⟩ := Option.ite_none_right_eq_some.mp h
    exact ⟨rfl, rfl⟩
  | ellipsis => cases h

theorem attempt_eq_error_iff {usage : Usage} {items : List Text} {text : Text}
    {failure : Failure} : usage.attempt items text = .error failure ↔
      (∃ i, usage.failureAt items text i = some failure ∧
        ∀ j < i, usage.failureAt items text j = none) ∨
      (∀ i, usage.failureAt items text i = none) ∧ usage.textLeft items text ≠ [] ∧
        failure = ⟨usage.pattern, [], [], .invalid, .arguments, none⟩ := by
  by_cases hf : ∀ i, usage.failureAt items text i = none
  · rw [attempt_eq_of_forall hf]
    by_cases ht : usage.textLeft items text = []
    · simp [hf, ht]
    · simp [hf, ht, eq_comm]
  · obtain ⟨i, f, hi, hj⟩ := exists_first_failure hf
    constructor
    · intro h
      obtain rfl := Except.error.inj ((attempt_eq_of_failureAt hi hj).symm.trans h)
      exact .inl ⟨i, hi, hj⟩
    · rintro (⟨k, hk, hl⟩ | ⟨hall, -⟩)
      · exact attempt_eq_of_failureAt hk hl
      · exact absurd hall hf

theorem attempt_eq_ok_iff {usage : Usage} {items : List Text} {text : Text} {m : Matched} :
    usage.attempt items text = .ok m ↔
      (∀ i, usage.failureAt items text i = none) ∧ usage.textLeft items text = [] ∧
        m = ⟨usage.pattern, (usage.bindings items text).map fun p => ⟨usage.pattern, p.1, p.2⟩,
          usage.itemsLeft items, []⟩ := by
  by_cases hf : ∀ i, usage.failureAt items text i = none
  · rw [attempt_eq_of_forall hf]
    by_cases ht : usage.textLeft items text = []
    · simp [hf, ht, eq_comm]
    · simp [ht]
  · obtain ⟨i, f, hi, hj⟩ := exists_first_failure hf
    rw [attempt_eq_of_failureAt hi hj]
    simp [hf]

/-- Up to the cut a token meets the items from its own place on, and behind it nothing. An attempt
fails at the first place whose token fails on what it sees, or else because text is left that
nothing cut off. If it does not, every token but ellipses binds one argument, in order. -/
theorem attempt_by_places {pattern : Text} {usage : Usage} (hu : ofPattern pattern = .ok usage)
    (items : List Text) (text : Text) :
    (∀ i ≤ usage.tokens.length, ∀ bound c,
      takeAll pattern (usage.tokens.take i) ⟨items, text⟩ = .ok (bound, c) →
        c = if i ≤ usage.cut then ⟨items.drop i, (items.take i).foldl behindItem text⟩
          else ⟨[], []⟩) ∧
    (∀ failure, usage.attempt items text = .error failure ↔
      (∃ i, usage.failureAt items text i = some failure ∧
        ∀ j < i, usage.failureAt items text j = none) ∨
      (∀ i, usage.failureAt items text i = none) ∧ usage.textLeft items text ≠ [] ∧
        failure = ⟨pattern, [], [], .invalid, .arguments, none⟩) ∧
    (∀ failure, usage.attempt items text = .error failure →
      failure.usage = pattern ∧ failure.item = none) ∧
    ∀ m, usage.attempt items text = .ok m ↔
      (∀ i, usage.failureAt items text i = none) ∧ usage.textLeft items text = [] ∧
        m = ⟨pattern, (usage.bindings items text).map fun p => ⟨pattern, p.1, p.2⟩,
          usage.itemsLeft items, []⟩ := by
  obtain ⟨-, rfl⟩ := scan_of_ofPattern hu
  refine ⟨?_, fun failure => attempt_eq_error_iff, ?_, fun m => attempt_eq_ok_iff⟩
  · intro i hi bound c hr
    rw [of_takeAll hr, leaveAll_take_eq hi]
    rfl
  · intro failure h
    rcases attempt_eq_error_iff.mp h with ⟨i, hi, -⟩ | ⟨-, -, rfl⟩
    · obtain ⟨token, -, ht⟩ := Option.bind_eq_some_iff.mp hi
      exact Token.of_failure? ht
    · exact ⟨rfl, rfl⟩

/-- The items and the text do not belong together. The first item takes two bytes off the text and
the second, which is the flag, two more and the blanks behind them. What is left goes to the spread
parameter, and nothing to the last one. -/
theorem attempt_by_places_disagreeing :
    ∃ usage, ofPattern "<x> -f [rest...] [more]".toList = .ok usage ∧
      usage.attempt [['é'], "-F".toList, ['z']] "abc  d".toList = .ok ⟨usage.pattern,
        [⟨usage.pattern, ['x'], ['é']⟩, ⟨usage.pattern, ['f'], "true".toList⟩,
          ⟨usage.pattern, "rest".toList, ['d']⟩, ⟨usage.pattern, "more".toList, []⟩], [], []⟩ ∧
      usage.attempt [] "abc".toList =
        .error ⟨usage.pattern, ['x'], [], .unmatched, .parameter, none⟩ := by
  let usage : Usage := ⟨"<x> -f [rest...] [more]".toList, [.param ['x'] false false, .flag ['f'],
    .param "rest".toList true true, .param "more".toList true false]⟩
  have hu : ofPattern "<x> -f [rest...] [more]".toList = .ok usage := by decide +kernel
  have hn : ∀ i, usage.failureAt [['é'], "-F".toList, ['z']] "abc  d".toList i = none := by
    intro i
    match i with
    | 0 | 1 | 2 | 3 => decide +kernel
    | i + 4 => rfl
  refine ⟨usage, hu, ?_, ?_⟩
  · obtain ⟨-, -, -, hok⟩ := attempt_by_places hu [['é'], "-F".toList, ['z']] "abc  d".toList
    exact (hok _).mpr ⟨hn, by decide +kernel, by decide +kernel⟩
  · obtain ⟨-, herror, -⟩ := attempt_by_places hu [] "abc".toList
    exact (herror _).mpr (.inl ⟨0, by decide +kernel, nofun⟩)

end Usage

end ChatCommand
