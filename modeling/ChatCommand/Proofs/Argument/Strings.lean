import Mathlib.Data.Set.Function
import ChatCommand.Proofs.Matching.Quoting

/-! # Strings of items

The quoted strings in a line are the quotations of strings. So a quoted item can be told from the
string that it stands for, every string is that of one quoted item, and any other item is its own
string.
-/

namespace ChatCommand

open Text

namespace Line

theorem exists_escape_of_closes {t : Text} (h : Closes t) : ∃ s, escape s ++ ['"'] = t := by
  induction h with
  | close => exact ⟨[], rfl⟩
  | @plain c t hq hb _ ih =>
    obtain ⟨s, rfl⟩ := ih
    exact ⟨c :: s, by rw [escape, if_neg (not_or.mpr ⟨hq, hb⟩), List.cons_append]⟩
  | @escape c t hc _ ih =>
    obtain ⟨s, rfl⟩ := ih
    exact ⟨c :: s, by rw [escape, if_pos hc, List.cons_append, List.cons_append]⟩

theorem isQuoted_iff {t : Text} : IsQuoted t ↔ ∃ s, quote s = t := by
  constructor
  · rintro ⟨body, rfl, hb⟩
    obtain ⟨s, rfl⟩ := exists_escape_of_closes hb
    exact ⟨s, rfl⟩
  · rintro ⟨s, rfl⟩
    exact isQuoted_quote s

theorem isQuoted_or_isBareWord {line : Text} {inv : Invocation}
    (h : Invocation.ofLine? line = some inv) {item : Text} (hm : item ∈ inv.items) :
    item.head? = some '"' ∧ IsQuoted item ∨ item.head? ≠ some '"' ∧ IsBareWord item := by
  obtain ⟨-, rest, hi, -⟩ := exists_of_ofLine? h
  rcases kind_of_mem_items (hi ▸ hm) with hb | hq
  · exact .inr ⟨hb.head?_ne, hb⟩
  · obtain ⟨s, rfl⟩ := isQuoted_iff.mp hq
    exact .inl ⟨rfl, hq⟩

def IsQuotedItem (t : Text) : Prop :=
  t.head? = some '"' ∧ ∃ line inv, Invocation.ofLine? line = some inv ∧ t ∈ inv.items

theorem isQuotedItem_iff {t : Text} : IsQuotedItem t ↔ ∃ s, quote s = t := by
  constructor
  · rintro ⟨hh, line, inv, hi, hm⟩
    rcases isQuoted_or_isBareWord hi hm with ⟨-, hq⟩ | ⟨hn, -⟩
    · exact isQuoted_iff.mp hq
    · exact absurd hh hn
  · rintro ⟨s, rfl⟩
    have hx : IsBareWord ['x'] := ⟨List.cons_ne_nil _ _, List.all_eq_true.mp rfl⟩
    have hi := (ofLine?_spaced hx (.cons (.quoted s) .nil)).1
    exact ⟨rfl, _, _, hi, List.mem_cons_self⟩

end Line

namespace Argument

open Line

/-- A quoted item is its string in quotes again, and any other item is its own string. The quoted
items of all lines and the strings are in bijection. -/
theorem string_bijective (usage name : Text) :
    (∀ (line : Text) (inv : Invocation), Invocation.ofLine? line = some inv →
      ∀ item ∈ inv.items,
        (item.head? = some '"' → quote (string ⟨usage, name, item⟩) = item) ∧
        (item.head? ≠ some '"' → string ⟨usage, name, item⟩ = item)) ∧
    Set.BijOn (fun item => string ⟨usage, name, item⟩) {item | IsQuotedItem item} Set.univ := by
  have hs : ∀ s, string ⟨usage, name, quote s⟩ = s := unquote_quote
  refine ⟨fun line inv hi item hm => ?_, fun _ _ => trivial, ?_, fun s _ => ?_⟩
  · rcases isQuoted_or_isBareWord hi hm with ⟨hh, hq⟩ | ⟨hn, hb⟩
    · obtain ⟨s, rfl⟩ := isQuoted_iff.mp hq
      exact ⟨fun _ => by rw [hs], fun hn => absurd hh hn⟩
    · exact ⟨fun hh => absurd hh hn, fun _ => (Spells.bare hb).unquote_eq⟩
  · intro item hi item' hi' he
    obtain ⟨s, rfl⟩ := isQuotedItem_iff.mp hi
    obtain ⟨s', rfl⟩ := isQuotedItem_iff.mp hi'
    exact congrArg quote (((hs s).symm.trans he).trans (hs s'))
  · exact ⟨quote s, isQuotedItem_iff.mpr ⟨s, rfl⟩, hs s⟩

theorem string_bijective_backslash :
    ∃ inv, Invocation.ofLine? "cmd \"\\\"é\\\\\"b".toList = some inv ∧
      inv.items = ["\"\\\"é\\\\\"".toList, ['b']] ∧
      quote (string ⟨[], [], "\"\\\"é\\\\\"".toList⟩) = "\"\\\"é\\\\\"".toList ∧
      string ⟨[], [], ['b']⟩ = ['b'] := by
  let inv : Invocation :=
    ⟨"cmd".toList, ["\"\\\"é\\\\\"".toList, ['b']], "\"\\\"é\\\\\"b".toList⟩
  have hi : Invocation.ofLine? "cmd \"\\\"é\\\\\"b".toList = some inv := by decide +kernel
  have h := (string_bijective [] []).1 _ _ hi
  exact ⟨inv, hi, rfl, (h _ List.mem_cons_self).1 rfl,
    (h _ (List.mem_cons_of_mem _ List.mem_cons_self)).2 (by decide)⟩

end Argument

end ChatCommand
