import ChatCommand.Proofs.Matching.Run
import ChatCommand.Proofs.Usage.Compiled

/-! # Arguments by name

Flags and parameters bind under names that differ from each other, but a literal binds under the
option that the input picks, which may be one of these names. An argument is found under its key
exactly if no literal before it picked the key, or if it was bound to the key itself.
-/

namespace ChatCommand.Usage

open Text

/-- One of the tokens is a literal, and the item at its place picks `key`. -/
def Picked (tokens : List Token) (items : List Text) (key : Text) : Prop :=
  ∃ (i : Nat) (options : List Text), tokens[i]? = some (.literal options) ∧
    items[i]?.map lowercase = some key

variable {pattern text key : Text} {items : List Text} {tokens : List Token}

theorem option_of_bound_literal {options : List Text} {i : Nat} {b : Option (Text × Text)}
    (hi : tokens[i]? = some (.literal options)) (hn : [] ∉ options)
    (h : (Token.literal options).bound pattern (leaveAll ⟨items, text⟩ (tokens.take i)) = .ok b) :
    ∃ word, items[i]?.map lowercase = some word ∧ b = some (word, word) := by
  obtain ⟨hlt, -⟩ := List.getElem?_eq_some_iff.mp hi
  obtain ⟨hm, hb⟩ := Token.of_bound_literal h
  rw [item_leaveAll_take items text (Nat.le_of_lt hlt)] at hm hb
  split at hm
  · exact absurd hm hn
  · next hg =>
    rw [if_neg hg] at hb
    cases hit : items[i]? with
    | none =>
      rw [hit] at hm
      exact absurd hm hn
    | some item => exact ⟨lowercase item, rfl, by simpa [hit] using hb⟩

section Before

variable {c : Cursor} {before : List (Text × Text)}
  (h : takeAll pattern tokens ⟨items, text⟩ = .ok (before, c))
  (ho : ∀ options, .literal options ∈ tokens → [] ∉ options)

include h ho

theorem mem_of_picked (hp : Picked tokens items key) : (key, key) ∈ before := by
  obtain ⟨i, options, hi, hkey⟩ := hp
  obtain ⟨b, hb, hmem⟩ := bound_of_takeAll h hi
  obtain ⟨word, hword, rfl⟩ :=
    option_of_bound_literal hi (ho options (List.mem_of_getElem? hi)) hb
  obtain rfl : word = key := Option.some.inj (hword.symm.trans hkey)
  exact hmem _ rfl

/-- Only a literal can bind under a name that none of the tokens declares. -/
theorem picked_of_mem (hk : ∀ token ∈ tokens, token.key? ≠ some key) {p : Text × Text}
    (hp : p ∈ before) (hname : p.1 = key) : Picked tokens items key ∧ p = (key, key) := by
  obtain ⟨i, token, hi, hb⟩ := exists_of_mem_takeAll h hp
  have hmem := List.mem_of_getElem? hi
  cases token with
  | literal options =>
    obtain ⟨word, hword, he⟩ := option_of_bound_literal hi (ho options hmem) hb
    obtain rfl := Option.some.inj he
    obtain rfl : word = key := hname
    exact ⟨⟨i, options, hi, hword⟩, rfl⟩
  | flag name =>
    have hf : p.1 = name := Token.fst_of_bound rfl hb
    exact absurd (by rw [← hname, hf]; rfl) (hk _ hmem)
  | param name optional spread =>
    have hf : p.1 = name := Token.fst_of_bound rfl hb
    exact absurd (by rw [← hname, hf]; rfl) (hk _ hmem)
  | ellipsis => cases hb

end Before

theorem exists_get?_of_mem_keys {usage : Usage} {m : Matched}
    (hm : usage.attempt items text = .ok m) (hk : key ∈ usage.keys) :
    ∃ arg, m.get? key = some arg := by
  obtain ⟨token, ht, hkey⟩ := List.mem_filterMap.mp hk
  obtain ⟨pre, post, hs⟩ := List.append_of_mem ht
  obtain ⟨before, b, after, -, hb, hargs⟩ := of_attempt_split hm hs
  have hne : token ≠ .ellipsis := by
    rintro rfl
    cases hkey
  obtain ⟨⟨name, value⟩, rfl⟩ := Token.exists_of_bound hb hne
  obtain rfl : name = key := Token.fst_of_bound hkey hb
  rw [← Option.isSome_iff_exists, Matched.get?, List.find?_isSome]
  exact ⟨⟨usage.pattern, name, value⟩, by simp [hargs], by simp⟩

/-- What a flag or a parameter binds is found under its key unless a literal before it picked the
key. Then the key itself is found instead. -/
theorem get?_eq_bound_iff {usage : Usage} {m : Matched} (hu : ofPattern pattern = .ok usage)
    (hm : usage.attempt items text = .ok m) {pre post : List Token} {token : Token}
    (ht : usage.tokens = pre ++ token :: post) (hk : token.key? = some key) :
    ∃ value, token.bound usage.pattern (leaveAll ⟨items, text⟩ pre) = .ok (some (key, value)) ∧
      ⟨usage.pattern, key, value⟩ ∈ m.args ∧
      (m.get? key = some ⟨usage.pattern, key, value⟩ ↔ ¬ Picked pre items key ∨ value = key) ∧
      (Picked pre items key → m.get? key = some ⟨usage.pattern, key, key⟩) := by
  obtain ⟨before, b, after, hr, hb, hargs⟩ := of_attempt_split hm ht
  have hne : token ≠ .ellipsis := by
    rintro rfl
    simp [Token.key?] at hk
  obtain ⟨⟨name, value⟩, rfl⟩ := Token.exists_of_bound hb hne
  obtain rfl : name = key := Token.fst_of_bound hk hb
  have ho : ∀ options, .literal options ∈ pre → [] ∉ options := fun options hmem =>
    nil_notMem_options hu (by rw [ht]; exact List.mem_append_left _ hmem)
  have hfresh : ∀ t ∈ pre, t.key? ≠ some name := by
    have hn := nodup_keys hu
    rw [keys, ht, List.filterMap_append, List.filterMap_cons_some hk] at hn
    intro t hmem hkey
    exact (List.nodup_append.mp hn).2.2 name (List.mem_filterMap.mpr ⟨t, hmem, hkey⟩) name
      List.mem_cons_self rfl
  have hget : m.get? name =
      ((before ++ (name, value) :: after).find? (·.1 = name)).map
        fun p => ⟨usage.pattern, p.1, p.2⟩ := by
    rw [Matched.get?, hargs, List.find?_map]
    rfl
  refine ⟨value, hb, by simp [hargs], ?_⟩
  rw [hget, List.find?_append]
  cases hf : before.find? (·.1 = name) with
  | none =>
    have hnp : ¬ Picked pre items name := fun hp => by
      simpa using List.find?_eq_none.mp hf _ (mem_of_picked hr ho hp)
    simp [hnp]
  | some p =>
    obtain ⟨hp, rfl⟩ := picked_of_mem hr ho hfresh (List.mem_of_find?_eq_some hf)
      (by simpa using List.find?_some hf)
    simp [hp, eq_comm]

theorem get?_flag_of_other_option :
    ∃ usage m, ofPattern "a|b -b".toList = .ok usage ∧
      usage.attempt [['A'], ['-', 'B']] "A -B".toList = .ok m ∧
      m.get? ['b'] = some ⟨usage.pattern, ['b'], "true".toList⟩ := by
  let usage : Usage := ⟨"a|b -b".toList, [.literal [['a'], ['b']], .flag ['b']]⟩
  have hu : ofPattern "a|b -b".toList = .ok usage := by decide +kernel
  have hm : usage.attempt [['A'], ['-', 'B']] "A -B".toList =
      .ok ⟨usage.pattern, [⟨usage.pattern, ['a'], ['a']⟩, ⟨usage.pattern, ['b'], "true".toList⟩],
        [], []⟩ := by decide +kernel
  have ht : usage.tokens = [.literal [['a'], ['b']]] ++ .flag ['b'] :: [] := rfl
  obtain ⟨value, hb, -, hiff, -⟩ := get?_eq_bound_iff hu hm ht rfl
  have hp : ¬ Picked [.literal [['a'], ['b']]] [['A'], ['-', 'B']] ['b'] := by
    rintro ⟨i, options, hi, hkey⟩
    obtain rfl : i = 0 := by
      have := (List.getElem?_eq_some_iff.mp hi).1
      simpa using this
    exact absurd hkey (by decide +kernel)
  have hv : (Token.flag ['b']).bound usage.pattern
      (leaveAll ⟨[['A'], ['-', 'B']], "A -B".toList⟩ [.literal [['a'], ['b']]]) =
      .ok (some (['b'], "true".toList)) := by decide +kernel
  obtain rfl : "true".toList = value := by simpa using hv.symm.trans hb
  exact ⟨usage, _, hu, hm, hiff.mpr (Or.inl hp)⟩

/-- The argument of the parameter is out of reach: its name is the option that was picked. -/
theorem literal_hides_param :
    ofPattern "a <a>".toList = .ok ⟨"a <a>".toList, [.literal [['a']], .param ['a'] false false]⟩ ∧
      (Usage.mk "a <a>".toList [.literal [['a']], .param ['a'] false false]).attempt [['a'], ['x']]
          "a x".toList =
        .ok ⟨"a <a>".toList, [⟨"a <a>".toList, ['a'], ['a']⟩, ⟨"a <a>".toList, ['a'], ['x']⟩],
          [], []⟩ ∧
      (Matched.mk "a <a>".toList [⟨"a <a>".toList, ['a'], ['a']⟩, ⟨"a <a>".toList, ['a'], ['x']⟩]
          [] []).get? ['a'] ≠ some ⟨"a <a>".toList, ['a'], ['x']⟩ := by
  decide +kernel

end ChatCommand.Usage
