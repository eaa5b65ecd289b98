import ChatCommand.Proofs.Line.LetterCase
import ChatCommand.Proofs.Matching.Declared

/-! # Matching up to the case of letters

What a token looks at in lowercase is the same in either case, and an item takes the same number of
bytes off the text. Inputs that differ in the case of letters only are therefore accepted by the
same usages, which bind the same arguments up to the case of what parameters keep, and refused with
the same failures.
-/

namespace ChatCommand

open Text

namespace Cursor

def foldCase (c : Cursor) : Cursor := ⟨c.items.map Text.foldCase, Text.foldCase c.text⟩

def SameLetters (c c' : Cursor) : Prop := c.foldCase = c'.foldCase

theorem item_foldCase (c : Cursor) : c.foldCase.item = Text.foldCase c.item := by
  obtain ⟨items, text⟩ := c
  cases items with
  | nil => rfl
  | cons item items => rfl

theorem dropBytes_foldCase (n : Nat) (t : Text) :
    dropBytes n (Text.foldCase t) = Text.foldCase (dropBytes n t) := by
  induction t generalizing n with
  | nil => cases n <;> rfl
  | cons c t ih =>
    cases n with
    | zero => rw [dropBytes, dropBytes]
    | succ n => rw [foldCase_cons, dropBytes, utf8Size_toLower, ih, dropBytes]

theorem advance_foldCase (c : Cursor) : c.foldCase.advance = c.advance.foldCase := by
  obtain ⟨items, text⟩ := c
  cases items with
  | nil => rfl
  | cons item items =>
    have ht : skip (utf8Size (Text.foldCase item)) (Text.foldCase text) =
        Text.foldCase (skip (utf8Size item) text) := by
      rw [skip, skip, utf8Size_foldCase, dropBytes_foldCase, trimStart_foldCase]
    exact congrArg (Cursor.mk _) ht

namespace SameLetters

variable {c c' : Cursor}

theorem text (h : c.SameLetters c') : Text.SameLetters c.text c'.text :=
  congrArg Cursor.text h

theorem item (h : c.SameLetters c') : Text.SameLetters c.item c'.item := by
  unfold Text.SameLetters
  rw [← item_foldCase, ← item_foldCase]
  exact congrArg Cursor.item h

theorem advance (h : c.SameLetters c') : c.advance.SameLetters c'.advance := by
  unfold SameLetters
  rw [← advance_foldCase, ← advance_foldCase]
  exact congrArg Cursor.advance h

end SameLetters

end Cursor

namespace Usage

theorem isFlag_foldCase (name item : Text) : isFlag name (foldCase item) = isFlag name item := by
  cases item with
  | nil => rfl
  | cons c word =>
    have hc : c.toLower = '-' ↔ c = '-' := toLower_eq_iff (by decide) (by decide)
    by_cases hd : c = '-'
    · subst hd
      simp [isFlag, lowercase_foldCase]
    · have hd' : c.toLower ≠ '-' := mt hc.mp hd
      simp [isFlag, hd, hd']

/-- What tokens bind in either case: literals and flags the same, parameters the same letters, and
an ellipsis nothing. -/
inductive SameArguments : List Token → List Argument → List Argument → Prop
  | nil : SameArguments [] [] []
  | literal {options : List Text} {tokens : List Token} {args args' : List Argument}
      (arg : Argument) (h : SameArguments tokens args args') :
      SameArguments (.literal options :: tokens) (arg :: args) (arg :: args')
  | flag {name : Text} {tokens : List Token} {args args' : List Argument}
      (arg : Argument) (h : SameArguments tokens args args') :
      SameArguments (.flag name :: tokens) (arg :: args) (arg :: args')
  | param {name : Text} {optional spread : Bool} {tokens : List Token} {args args' : List Argument}
      (pattern : Text) {text text' : Text} (ht : SameLetters text text')
      (h : SameArguments tokens args args') :
      SameArguments (.param name optional spread :: tokens)
        (⟨pattern, name, text⟩ :: args) (⟨pattern, name, text'⟩ :: args')
  | ellipsis {tokens : List Token} {args args' : List Argument}
      (h : SameArguments tokens args args') : SameArguments (.ellipsis :: tokens) args args'

theorem SameArguments.append {pre post : List Token} {args args' more more' : List Argument}
    (h : SameArguments pre args args') (hm : SameArguments post more more') :
    SameArguments (pre ++ post) (args ++ more) (args' ++ more') := by
  induction h with
  | nil => exact hm
  | literal arg _ ih => exact .literal arg ih
  | flag arg _ ih => exact .flag arg ih
  | param pattern ht _ ih => exact .param pattern ht ih
  | ellipsis _ ih => exact .ellipsis ih

section Run

variable {c c' : Cursor}

theorem Token.take_alike (pattern : Text) (h : c.SameLetters c') (token : Token) :
    Alike (fun r r' => SameArguments [token] (r.1.toList.map fun p => ⟨pattern, p.1, p.2⟩)
      (r'.1.toList.map fun p => ⟨pattern, p.1, p.2⟩) ∧ r.2.SameLetters r'.2)
      (token.take pattern c) (token.take pattern c') := by
  cases token with
  | literal options =>
    unfold take
    rw [h.item.lowercase_eq]
    dsimp only
    split
    · exact .ok ⟨.literal _ .nil, h.advance⟩
    · exact .error _
  | flag name =>
    have hf : isFlag name c.item = isFlag name c'.item := by
      rw [← isFlag_foldCase, h.item, isFlag_foldCase]
    unfold take
    dsimp only
    rw [hf]
    exact .ok ⟨.flag _ .nil, h.advance⟩
  | param name optional spread =>
    have ht : SameLetters (if spread then c.text else c.item)
        (if spread then c'.text else c'.item) := by
      cases spread with
      | false => exact h.item
      | true => exact h.text
    have hl : (if spread then Cursor.clear else c.advance).SameLetters
        (if spread then Cursor.clear else c'.advance) := by
      cases spread with
      | false => exact h.advance
      | true => rfl
    unfold take
    dsimp only
    have hn : ((if spread then c.text else c.item) = [] ∧ !optional) ↔
        (if spread then c'.text else c'.item) = [] ∧ !optional := by
      rw [ht.eq_nil_iff]
    by_cases hm : (if spread then c.text else c.item) = [] ∧ !optional
    · rw [if_pos hm, if_pos (hn.mp hm)]
      exact .error _
    · rw [if_neg hm, if_neg (mt hn.mpr hm)]
      exact .ok ⟨.param pattern ht .nil, hl⟩
  | ellipsis => exact .ok ⟨.ellipsis .nil, rfl⟩

theorem takeAll_alike (pattern : Text) (h : c.SameLetters c') (tokens : List Token) :
    Alike (fun r r' => SameArguments tokens (r.1.map fun p => ⟨pattern, p.1, p.2⟩)
      (r'.1.map fun p => ⟨pattern, p.1, p.2⟩) ∧ r.2.SameLetters r'.2)
      (takeAll pattern tokens c) (takeAll pattern tokens c') := by
  induction tokens generalizing c c' with
  | nil => exact .ok ⟨.nil, h⟩
  | cons token tokens ih =>
    apply (token.take_alike pattern h).bind
    rintro ⟨b, d⟩ ⟨b', d'⟩ ⟨hb, hd⟩
    apply (ih hd).bind
    rintro ⟨more, e⟩ ⟨more', e'⟩ ⟨hm, he⟩
    apply Alike.ok
    rw [List.map_append, List.map_append]
    exact ⟨hb.append hm, he⟩

theorem attempt_alike (usage : Usage) {items items' : List Text} {text text' : Text}
    (h : (Cursor.mk items text).SameLetters ⟨items', text'⟩) :
    Alike (fun m m' => SameArguments usage.tokens m.args m'.args)
      (usage.attempt items text) (usage.attempt items' text') := by
  apply (takeAll_alike usage.pattern h usage.tokens).bind
  rintro ⟨bound, c⟩ ⟨bound', c'⟩ ⟨hb, hc⟩
  dsimp only
  by_cases ht : c.text = []
  · rw [if_pos ht, if_pos (hc.text.eq_nil_iff.mp ht)]
    exact .ok hb
  · rw [if_neg ht, if_neg (mt hc.text.eq_nil_iff.mpr ht)]
    exact .error _

end Run

end Usage

namespace Usages

variable {α : Type} {items items' : List Text} {text text' : Text}

theorem find_eq_failure_iff_of_sameLetters (usages : Usages α)
    (h : (Cursor.mk items text).SameLetters ⟨items', text'⟩) {failure : Failure} :
    usages.find items text = .failure failure ↔ usages.find items' text' = .failure failure := by
  rw [find_eq_failure_iff, find_eq_failure_iff]
  simp only [(Usage.attempt_alike _ h).forall_ne_ok_iff, (Usage.attempt_alike _ h).eq_error_iff]

theorem exists_find_numbered_of_sameLetters (usages : Usages α)
    (h : (Cursor.mk items text).SameLetters ⟨items', text'⟩) {i : Nat} {m : Matched}
    (hf : usages.numbered.find items text = .success i m) :
    ∃ entry m', usages.entries[i]? = some entry ∧
      usages.numbered.find items' text' = .success i m' ∧
      Usage.SameArguments entry.1.tokens m.args m'.args := by
  obtain ⟨entry, he, hm, hl⟩ := find_numbered_eq_success_iff.mp hf
  obtain ⟨m', hm', ha⟩ := (Usage.attempt_alike entry.1 h).exists_of_eq_ok hm
  refine ⟨entry, m', he, find_numbered_eq_success_iff.mpr ⟨entry, he, hm', ?_⟩, ha⟩
  intro j later hj hlater
  exact (Usage.attempt_alike later.1 h).forall_ne_ok_iff.mp (hl j later hj hlater)

/-- Lines that differ in the case of letters only invoke a command both or neither, with items at
the same bytes. The same usage is then found for both, with the same arguments up to the case of
letters in what parameters bind, or the same failure. -/
theorem find_sameLetters (usages : Usages α) {line line' : Text} (h : SameLetters line line') :
    ((∃ inv, Invocation.ofLine? line = some inv) ↔
      ∃ inv', Invocation.ofLine? line' = some inv') ∧
    ∀ inv inv', Invocation.ofLine? line = some inv → Invocation.ofLine? line' = some inv' →
      (inv.items = (Line.arguments line).map Word.text ∧
        inv'.items = (Line.arguments line').map Word.text ∧
        (Line.arguments line).map (Word.place line) =
          (Line.arguments line').map (Word.place line')) ∧
      (∀ failure, usages.find inv.items inv.text = .failure failure ↔
        usages.find inv'.items inv'.text = .failure failure) ∧
      (usages.find inv.items inv.text = .empty ↔ usages.find inv'.items inv'.text = .empty) ∧
      ∀ handler m, usages.find inv.items inv.text = .success handler m →
        ∃ (i : Nat) (usage : Usage) (m' : Matched), usages.entries[i]? = some (usage, handler) ∧
          usages.numbered.find inv.items inv.text = .success i m ∧
          usages.numbered.find inv'.items inv'.text = .success i m' ∧
          usages.find inv'.items inv'.text = .success handler m' ∧
          Usage.SameArguments usage.tokens m.args m'.args := by
  constructor
  · rw [← Option.isSome_iff_exists, ← Option.isSome_iff_exists, ← Option.isSome_map, h.ofLine?_eq,
      Option.isSome_map]
  · intro inv inv' hi hi'
    have hc : (Cursor.mk inv.items inv.text).SameLetters ⟨inv'.items, inv'.text⟩ := by
      have he := h.ofLine?_eq
      rw [hi, hi', Option.map_some, Option.map_some, Option.some.injEq] at he
      exact congrArg (fun i => Cursor.mk i.items i.text) he
    refine ⟨⟨Invocation.items_eq hi, Invocation.items_eq hi', h.places_eq⟩,
      fun failure => usages.find_eq_failure_iff_of_sameLetters hc,
      find_eq_empty_iff.trans find_eq_empty_iff.symm, ?_⟩
    intro handler m hf
    obtain ⟨i, usage, he, hn⟩ := find_eq_success_iff_numbered.mp hf
    obtain ⟨entry, m', he', hn', ha⟩ := usages.exists_find_numbered_of_sameLetters hc hn
    obtain rfl := Option.some.inj (he.symm.trans he')
    exact ⟨i, usage, m', he, hn, hn', find_eq_success_iff_numbered.mpr ⟨i, usage, he, hn'⟩, ha⟩

/-- The Kelvin sign has the lowercase of a letter but is none, so it stays as it is in the line. -/
theorem find_sameLetters_kelvin :
    ∃ m', (mk [(⟨"k -f <x>".toList,
        [.literal [['k']], .flag ['f'], .param ['x'] false false]⟩, ())]).find
          [['K'], "-f".toList, "\"a B\"".toList] "K -f \"a B\"".toList = .success () m' ∧
      Usage.SameArguments [.literal [['k']], .flag ['f'], .param ['x'] false false]
        [⟨"k -f <x>".toList, ['k'], ['k']⟩, ⟨"k -f <x>".toList, ['f'], "true".toList⟩,
          ⟨"k -f <x>".toList, ['x'], "\"A b\"".toList⟩] m'.args := by
  let usage : Usage :=
    ⟨"k -f <x>".toList, [.literal [['k']], .flag ['f'], .param ['x'] false false]⟩
  let m : Matched := ⟨usage.pattern, [⟨usage.pattern, ['k'], ['k']⟩,
    ⟨usage.pattern, ['f'], "true".toList⟩, ⟨usage.pattern, ['x'], "\"A b\"".toList⟩], [], []⟩
  have h : SameLetters "Say K -F \"A b\"".toList "sAY K -f \"a B\"".toList := by decide +kernel
  have hl : Invocation.ofLine? "Say K -F \"A b\"".toList = some ⟨"Say".toList,
      [['K'], "-F".toList, "\"A b\"".toList], "K -F \"A b\"".toList⟩ := by decide +kernel
  have hl' : Invocation.ofLine? "sAY K -f \"a B\"".toList = some ⟨"sAY".toList,
      [['K'], "-f".toList, "\"a B\"".toList], "K -f \"a B\"".toList⟩ := by decide +kernel
  have hm : usage.attempt [['K'], "-F".toList, "\"A b\"".toList] "K -F \"A b\"".toList = .ok m := by
    decide +kernel
  obtain ⟨-, hall⟩ := find_sameLetters (mk [(usage, ())]) h
  obtain ⟨-, -, -, hs⟩ := hall _ _ hl hl'
  obtain ⟨i, found, m', he, -, -, hf, ha⟩ := hs () m (find_singleton_eq_success_iff.mpr ⟨hm, rfl⟩)
  obtain rfl : usage = found := by
    have := List.mem_of_getElem? he
    simp_all
  exact ⟨m', hf, ha⟩

end Usages

end ChatCommand
