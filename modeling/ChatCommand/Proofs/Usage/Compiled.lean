import ChatCommand.Proofs.Fallible
import ChatCommand.Usage.Parser

/-! # Compiled usages

What reading a pattern promises about the tokens: words are never empty, so no option of a literal
is, and the names of flags and parameters differ from each other.
-/

namespace ChatCommand.Usage

open Text

def IsWord (w : Text) : Prop := w ≠ [] ∧ ∀ c ∈ w, isWordChar c = true

theorem isWord_of_word? {input w rest : Text} (h : word? input = some (w, rest)) : IsWord w := by
  refine ⟨(eq_of_word? h).2, ?_⟩
  unfold word? at h
  split at h
  · simp at h
  · next c w' hw =>
    obtain ⟨rfl, -⟩ := Prod.mk.inj (Option.some.inj h)
    rw [← hw]
    exact List.all_eq_true.mp List.all_takeWhile

theorem isWord_of_mem_alternatives {input w : Text} (h : w ∈ (alternatives input).1) :
    IsWord w := by
  fun_induction alternatives input with
  | case1 input v rest hv more ih =>
    rcases List.mem_cons.mp h with rfl | h
    · exact isWord_of_word? hv
    · exact ih h
  | case2 => simp at h
  | case3 => simp at h

theorem isWord_of_mem_words? {input rest w : Text} {ws : List Text}
    (h : words? input = some (ws, rest)) (hw : w ∈ ws) : IsWord w := by
  obtain ⟨first, hf, he⟩ := Option.map_eq_some_iff.mp h
  obtain ⟨rfl, -⟩ := Prod.mk.inj he
  rcases List.mem_cons.mp hw with rfl | hw
  · exact isWord_of_word? hf
  · exact isWord_of_mem_alternatives hw

theorem eq_param_of_param? {optional : Bool} {close : Char} {input rest : Text} {token : Token}
    (h : param? optional close input = some (token, rest)) :
    ∃ name spread, token = .param name optional spread := by
  obtain ⟨⟨name, tail⟩, -, h⟩ := Option.bind_eq_some_iff.mp h
  dsimp only at h
  split at h
  · split at h
    · obtain ⟨rfl, -⟩ := Prod.mk.inj (Option.some.inj h)
      exact ⟨_, _, rfl⟩
    · cases h
  · cases h

theorem isWord_of_mem_literal {input rest w : Text} {options : List Text}
    (h : token? input = some (.literal options, rest)) (hw : w ∈ options) : IsWord w := by
  unfold token? at h
  split at h
  · obtain ⟨name, spread, he⟩ := eq_param_of_param? h
    cases he
  · obtain ⟨name, spread, he⟩ := eq_param_of_param? h
    cases he
  · obtain ⟨r, -, he⟩ := Option.map_eq_some_iff.mp h
    simp at he
  · simp at h
  · obtain ⟨r, hr, he⟩ := Option.map_eq_some_iff.mp h
    obtain ⟨he, -⟩ := Prod.mk.inj he
    exact isWord_of_mem_words? hr (Token.literal.inj he ▸ hw)

theorem token?_of_mem_scan {seen : List Text} {input : Text} {tokens : List Token} {token : Token}
    (h : scan seen input = .ok tokens) (ht : token ∈ tokens) :
    ∃ place rest, token? place = some (token, rest) := by
  fun_induction scan seen input generalizing tokens with
  | case1 =>
    cases h
    simp at ht
  | case2 seen c rest _ ih => exact ih h ht
  | case3 => simp at h
  | case4 => simp at h
  | case5 seen c rest _ t rest' hr key _ _ ih =>
    obtain ⟨more, hm, rfl⟩ := map_eq_ok_iff.mp h
    rcases List.mem_cons.mp ht with rfl | ht
    · exact ⟨_, _, hr⟩
    · exact ih hm ht
  | case6 seen c rest _ t rest' hr _ ih =>
    obtain ⟨more, hm, rfl⟩ := map_eq_ok_iff.mp h
    rcases List.mem_cons.mp ht with rfl | ht
    · exact ⟨_, _, hr⟩
    · exact ih hm ht

theorem nodup_of_scan {seen : List Text} {input : Text} {tokens : List Token}
    (h : scan seen input = .ok tokens) :
    (tokens.filterMap Token.key?).Nodup ∧ ∀ key ∈ tokens.filterMap Token.key?, key ∉ seen := by
  fun_induction scan seen input generalizing tokens with
  | case1 =>
    cases h
    simp
  | case2 seen c rest _ ih => exact ih h
  | case3 => simp at h
  | case4 => simp at h
  | case5 seen c rest _ t rest' hr key hk hs ih =>
    obtain ⟨more, hm, rfl⟩ := map_eq_ok_iff.mp h
    obtain ⟨hn, hf⟩ := ih hm
    rw [List.filterMap_cons_some hk]
    constructor
    · exact List.nodup_cons.mpr ⟨fun hmem => hf key hmem (by simp), hn⟩
    · intro k hmem
      rcases List.mem_cons.mp hmem with rfl | hmem
      · exact hs
      · exact fun hse => hf k hmem (List.mem_cons_of_mem _ hse)
  | case6 seen c rest _ t rest' hr hk ih =>
    obtain ⟨more, hm, rfl⟩ := map_eq_ok_iff.mp h
    rw [List.filterMap_cons_none hk]
    exact ih hm

theorem scan_of_ofPattern {pattern : Text} {usage : Usage} (h : ofPattern pattern = .ok usage) :
    scan [] pattern = .ok usage.tokens ∧ usage.pattern = pattern := by
  unfold ofPattern at h
  split at h
  · next tokens ht =>
    obtain rfl := Except.ok.inj h
    exact ⟨ht, rfl⟩
  · cases h
  · cases h

theorem nodup_keys {pattern : Text} {usage : Usage} (h : ofPattern pattern = .ok usage) :
    usage.keys.Nodup :=
  (nodup_of_scan (scan_of_ofPattern h).1).1

theorem nil_notMem_options {pattern : Text} {usage : Usage} (h : ofPattern pattern = .ok usage)
    {options : List Text} (hl : .literal options ∈ usage.tokens) : [] ∉ options := by
  obtain ⟨place, rest, ht⟩ := token?_of_mem_scan (scan_of_ofPattern h).1 hl
  exact fun hn => (isWord_of_mem_literal ht hn).1 rfl

end ChatCommand.Usage
