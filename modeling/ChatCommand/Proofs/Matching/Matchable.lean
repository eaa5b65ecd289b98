import ChatCommand.Proofs.Matching.Declared
import ChatCommand.Proofs.Matching.Quoting
import ChatCommand.Proofs.Text.LetterCase
import ChatCommand.Proofs.Usage.Grammar

/-! # Usages that can be matched

A greedy token leaves nothing, so nothing that is required may stand behind it. A pattern without
such a token is matched by a line with one word for each token, and any other pattern by no input at
all.
-/

namespace ChatCommand.Usage

open Text

/-- Whether the token fails where no input is left. -/
def Token.isRequired : Token → Bool
  | literal _ => true
  | flag _ => false
  | param _ optional _ => !optional
  | ellipsis => false

def Matchable (usage : Usage) : Prop :=
  usage.tokens.Pairwise fun first later => first.isGreedy = true → later.isRequired = false

instance (usage : Usage) : Decidable usage.Matchable :=
  inferInstanceAs (Decidable (List.Pairwise _ _))

def Token.sample : Token → Text
  | literal options => options.headD ['x']
  | _ => ['x']

def sampleLine (usage : Usage) : Text := ['x'] ++ Line.spaced (usage.tokens.map Token.sample)

theorem isBare_of_isWordChar {c : Char} (h : isWordChar c = true) : Line.isBare c = true := by
  have hb : c ≠ '\\' := by
    rintro rfl
    exact absurd h (by decide)
  have hq : c ≠ '"' := by
    rintro rfl
    exact absurd h (by decide)
  simp [Line.isBare, hb, hq, isBlank_of_isWordChar h]

theorem IsWord.isBareWord {w : Text} (h : IsWord w) : Line.IsBareWord w :=
  ⟨h.1, fun c hc => isBare_of_isWordChar (h.2 c hc)⟩

theorem IsWord.lowercase_eq {w : Text} (h : IsWord w) : lowercase w = w := by
  refine lowercase_eq_self fun c hc => ?_
  have := isWordChar_iff_toNat.mp (h.2 c hc)
  omega

theorem isWord_x : IsWord ['x'] := ⟨List.cons_ne_nil _ _, List.all_eq_true.mp rfl⟩

theorem isWord_sample {token : Token} (h : token.WellFormed) : IsWord token.sample := by
  cases token with
  | literal options =>
    obtain ⟨w, ws, rfl⟩ := List.exists_cons_of_ne_nil h.1.ne_nil
    exact h.1.isWord w List.mem_cons_self
  | flag name => exact isWord_x
  | param name optional spread => exact isWord_x
  | ellipsis => exact isWord_x

theorem exists_boundWord_of_sample {pattern : Text} {token : Token} (h : token.WellFormed)
    {word : Word} (hw : word.text = token.sample) :
    ∃ b, token.boundWord pattern (some word) = .ok b := by
  cases token with
  | literal options =>
    obtain ⟨w, ws, rfl⟩ := List.exists_cons_of_ne_nil h.1.ne_nil
    refine ⟨_, if_pos ?_⟩
    rw [hw, (isWord_sample h).lowercase_eq]
    exact List.mem_cons_self
  | flag name => exact ⟨_, rfl⟩
  | param name optional spread => exact ⟨_, rfl⟩
  | ellipsis => exact ⟨_, rfl⟩

theorem exists_boundWord_none_iff {pattern : Text} {token : Token} :
    (∃ b, token.boundWord pattern none = .ok b) ↔ token.isRequired = false := by
  cases token with
  | literal options => simp [Token.boundWord, Token.isRequired]
  | flag name => simp [Token.boundWord, Token.isRequired]
  | param name optional spread => cases optional <;> simp [Token.boundWord, Token.isRequired]
  | ellipsis => simp [Token.boundWord, Token.isRequired]

variable {pattern : Text} {usage : Usage}

theorem Matchable.exists_positional (h : usage.Matchable)
    (hw : ∀ token ∈ usage.tokens, token.WellFormed) {words : List Word}
    (hs : words.map Word.text = usage.tokens.map Token.sample) :
    ∃ m, usage.positional words = .ok m := by
  have hlen : words.length = usage.tokens.length := by simpa using congrArg List.length hs
  refine exists_positional_iff.mpr ⟨fun i token hi => ?_, .inl (Nat.le_of_eq hlen)⟩
  obtain ⟨hlt, rfl⟩ := List.getElem?_eq_some_iff.mp hi
  rw [wordAt]
  split
  · next hg =>
    obtain ⟨first, hf, hg⟩ := List.any_eq_true.mp hg
    obtain ⟨j, hj, rfl⟩ := List.mem_take_iff_getElem.mp hf
    exact exists_boundWord_none_iff.mpr (List.pairwise_iff_getElem.mp h j i _ hlt (by omega) hg)
  · have hiw : i < words.length := hlen ▸ hlt
    have htext : words[i].text = usage.tokens[i].sample := by
      simpa [hlt, hiw] using congrArg (·[i]?) hs
    rw [List.getElem?_eq_getElem hiw]
    exact exists_boundWord_of_sample (hw _ (List.getElem_mem hlt)) htext

/-- Behind a greedy token every input is used up, so a required token fails there. -/
theorem matchable_of_attempt (hu : ofPattern pattern = .ok usage) {items : List Text}
    {text : Text} {m : Matched} (h : usage.attempt items text = .ok m) : usage.Matchable := by
  obtain ⟨bound, hr, -⟩ := of_attempt h
  refine List.pairwise_iff_getElem.mpr fun i j hi hj hlt hg => ?_
  obtain ⟨b, hb, -⟩ := bound_of_takeAll hr (List.getElem?_eq_getElem hj)
  have hmem : usage.tokens[i] ∈ usage.tokens.take j :=
    List.mem_take_iff_getElem.mpr ⟨i, by omega, rfl⟩
  rw [leaveAll_of_greedy _ ⟨_, hmem, hg⟩] at hb
  have he : usage.tokens[j].bound usage.pattern .clear =
      usage.tokens[j].boundWord usage.pattern none :=
    bound_eq_boundWord (by simp) rfl (fun _ => rfl) fun options ho =>
      nil_notMem_options hu (ho ▸ List.getElem_mem hj)
  exact exists_boundWord_none_iff.mp ⟨b, he.symm.trans hb⟩

theorem exists_attempt_sampleLine (hu : ofPattern pattern = .ok usage) (h : usage.Matchable) :
    ∃ inv m, Invocation.ofLine? usage.sampleLine = some inv ∧
      usage.attempt inv.items inv.text = .ok m := by
  have hw : ∀ token ∈ usage.tokens, token.WellFormed := fun _ => wellFormed_of_mem_tokens hu
  have hs : List.Forall₂ Line.Spells (usage.tokens.map Token.sample)
      (usage.tokens.map Token.sample) := by
    refine List.forall₂_same.mpr fun w hmem => ?_
    obtain ⟨token, ht, rfl⟩ := List.mem_map.mp hmem
    exact .bare (isWord_sample (hw token ht)).isBareWord
  obtain ⟨hi, hf⟩ := Line.ofLine?_spaced isWord_x.isBareWord hs
  obtain ⟨m, hm⟩ := h.exists_positional hw (Invocation.items_eq hi).symm
  refine ⟨_, m, hi, ?_⟩
  rw [attempt_eq_positional hi hf fun options ho => nil_notMem_options hu ho, hm]

example : sampleLine ⟨"ban|kick <who> [why...]".toList,
    [.literal ["ban".toList, "kick".toList], .param "who".toList false false,
      .param "why".toList true true]⟩ = "x ban x x".toList := by
  decide

/-- A pattern is matched by a line unless a literal or a required parameter stands behind an
ellipsis or a spread parameter. Then it fails on every input, also on one that is of no line. -/
theorem exists_find_eq_success_iff {α : Type} (handler : α) (hu : ofPattern pattern = .ok usage) :
    ((∃ line inv m, Invocation.ofLine? line = some inv ∧
        (Usages.mk [(usage, handler)]).find inv.items inv.text = .success handler m) ↔
      usage.Matchable) ∧
    (¬ usage.Matchable → ∀ items text, ∃ failure,
      (Usages.mk [(usage, handler)]).find items text = .failure failure) := by
  simp only [Usages.find_singleton_eq_success_iff, Usages.find_singleton_eq_failure_iff, and_true]
  refine ⟨⟨?_, fun h => ?_⟩, fun h items text => ?_⟩
  · rintro ⟨line, inv, m, -, hm⟩
    exact matchable_of_attempt hu hm
  · obtain ⟨inv, m, hi, hm⟩ := exists_attempt_sampleLine hu h
    exact ⟨_, inv, m, hi, hm⟩
  · cases ha : usage.attempt items text with
    | ok m => exact absurd (matchable_of_attempt hu ha) h
    | error failure => exact ⟨failure, rfl⟩

theorem exists_find_eq_success_iff_spread :
    (∃ usage line inv m, ofPattern "<who> <why...> -quiet [more]".toList = .ok usage ∧
      Invocation.ofLine? line = some inv ∧
      (Usages.mk [(usage, ())]).find inv.items inv.text = .success () m) ∧
    ∃ usage, ofPattern "<why...> on".toList = .ok usage ∧
      ∀ items text, ∃ failure, (Usages.mk [(usage, ())]).find items text = .failure failure := by
  constructor
  · let usage : Usage := ⟨"<who> <why...> -quiet [more]".toList,
      [.param "who".toList false false, .param "why".toList false true, .flag "quiet".toList,
        .param "more".toList true false]⟩
    have hu : ofPattern "<who> <why...> -quiet [more]".toList = .ok usage := by decide +kernel
    obtain ⟨line, inv, m, hi, hf⟩ := (exists_find_eq_success_iff () hu).1.mpr (by decide)
    exact ⟨usage, line, inv, m, hu, hi, hf⟩
  · let usage : Usage := ⟨"<why...> on".toList,
      [.param "why".toList false true, .literal ["on".toList]]⟩
    have hu : ofPattern "<why...> on".toList = .ok usage := by decide +kernel
    exact ⟨usage, hu, (exists_find_eq_success_iff () hu).2 (by decide)⟩

end ChatCommand.Usage
