import Mathlib.Data.List.Infix
import ChatCommand.Proofs.Text.Spacing
import ChatCommand.Proofs.Usage.Compiled
import ChatCommand.Usage.Basic

/-! # The grammar of patterns

The forms of a pattern are the prints of its well-formed tokens. Several of them may start at the
same place; the token that is read there is the one with the longest form.
-/

namespace ChatCommand.Usage

open Text

structure IsChoice (words : List Text) : Prop where
  ne_nil : words ≠ []
  isWord : ∀ w ∈ words, IsWord w

/-- Names are words, those of flags perhaps several with bars in between. The options of a literal
are words, and the first does not look like a flag. -/
def Token.WellFormed : Token → Prop
  | literal options => IsChoice options ∧ (['|'].intercalate options).head? ≠ some '-'
  | flag name => ∃ words, IsChoice words ∧ name = ['|'].intercalate words
  | param name _ _ => IsWord name
  | ellipsis => True

/-- The token has a form at the start of the input, and no other form there is longer. -/
structure Token.Longest (token : Token) (input rest : Text) : Prop where
  wellFormed : token.WellFormed
  eq_append : input = token.print ++ rest
  length_le : ∀ other : Token, other.WellFormed → other.print <+: input →
    other.print.length ≤ token.print.length

theorem isWordChar_bar : isWordChar '|' = false := by decide

theorem isWordChar_iff_toNat {c : Char} : isWordChar c = true ↔
    97 ≤ c.toNat ∧ c.toNat ≤ 122 ∨ 48 ≤ c.toNat ∧ c.toNat ≤ 57 ∨ c.toNat = 45 := by
  have hle : ∀ a b : Char, a ≤ b ↔ a.toNat ≤ b.toNat := fun _ _ => Iff.rfl
  have heq : c = '-' ↔ c.toNat = 45 := by
    constructor
    · rintro rfl
      rfl
    · intro h
      rw [← Char.ofNat_toNat c, h]
  simp only [isWordChar, Bool.or_eq_true, Bool.and_eq_true, decide_eq_true_eq, beq_iff_eq, hle, heq,
    or_assoc]
  rfl

theorem isBlank_of_isWordChar {c : Char} (h : isWordChar c = true) : isBlank c = false := by
  have := isWordChar_iff_toNat.mp h
  simp [isBlank]
  omega

theorem IsWord.exists_cons {w : Text} (h : IsWord w) :
    ∃ c r, w = c :: r ∧ isWordChar c = true := by
  obtain ⟨c, r, rfl⟩ := List.exists_cons_of_ne_nil h.1
  exact ⟨c, r, rfl, h.2 c List.mem_cons_self⟩

theorem word?_append {w : Text} (h : IsWord w) (t : Text) :
    word? (w ++ t) = some (w ++ t.takeWhile isWordChar, t.dropWhile isWordChar) := by
  rw [word?, List.takeWhile_append_of_pos h.2, List.dropWhile_append_of_pos h.2]
  obtain ⟨c, r, rfl, -⟩ := h.exists_cons
  rfl

theorem word?_append_cons {w : Text} (h : IsWord w) {c : Char} (hc : isWordChar c = false)
    (t : Text) : word? (w ++ c :: t) = some (w, c :: t) := by
  simp [word?_append h, hc]

theorem rest_of_word? {input w rest : Text} (h : word? input = some (w, rest)) :
    rest = input.dropWhile isWordChar := by
  unfold word? at h
  split at h
  · cases h
  · exact (Prod.mk.inj (Option.some.inj h)).2.symm

/-- What is left of the text when a choice is read on from within a word. -/
def behindWord (t : Text) : Text := (alternatives (t.dropWhile isWordChar)).2

theorem alternatives_bar {t w rest : Text} (h : word? t = some (w, rest)) :
    alternatives ('|' :: t) = (w :: (alternatives rest).1, (alternatives rest).2) := by
  rw [alternatives]
  split
  · next w' rest' h' =>
    obtain ⟨rfl, rfl⟩ := Prod.mk.inj (Option.some.inj (h'.symm.trans h))
    rfl
  · next h' =>
    rw [h'] at h
    cases h

theorem alternatives_append (input : Text) :
    (alternatives input).1.flatMap ('|' :: ·) ++ (alternatives input).2 = input := by
  fun_induction alternatives input with
  | case1 input w rest h more ih =>
    rw [List.flatMap_cons, List.append_assoc, ih, (eq_of_word? h).1]
    rfl
  | case2 => rfl
  | case3 => rfl

theorem behindWord_suffix (t : Text) : behindWord t <:+ t := by
  have h := alternatives_append (t.dropWhile isWordChar)
  exact (h ▸ List.suffix_append _ _ : behindWord t <:+ t.dropWhile isWordChar).trans
    (List.dropWhile_suffix _)

@[simp] theorem behindWord_nil : behindWord [] = [] := by simp [behindWord, alternatives]

theorem behindWord_cons {c : Char} (hc : isWordChar c = true) (t : Text) :
    behindWord (c :: t) = behindWord t := by
  rw [behindWord, List.dropWhile_cons_of_pos hc, behindWord]

theorem behindWord_of_ne {c : Char} (hc : isWordChar c = false) (hb : c ≠ '|') (t : Text) :
    behindWord (c :: t) = c :: t := by
  rw [behindWord, List.dropWhile_cons_of_neg (by simp [hc]), alternatives]
  intro t' h
  exact hb (List.cons.inj h).1

theorem behindWord_of_isBlank {c : Char} (hc : isBlank c = true) (t : Text) :
    behindWord (c :: t) = c :: t := by
  have hw : isWordChar c = false := by
    by_contra hw
    rw [isBlank_of_isWordChar (by simpa using hw)] at hc
    cases hc
  refine behindWord_of_ne hw ?_ t
  rintro rfl
  exact absurd hc (by decide)

theorem rest_of_words? {input rest : Text} {ws : List Text} (h : words? input = some (ws, rest)) :
    rest = behindWord input := by
  obtain ⟨⟨w, tail⟩, hw, he⟩ := Option.map_eq_some_iff.mp h
  rw [behindWord, ← rest_of_word? hw]
  exact (Prod.mk.inj he).2.symm

theorem of_words? {input rest : Text} {ws : List Text} (h : words? input = some (ws, rest)) :
    IsChoice ws ∧ input = ['|'].intercalate ws ++ rest := by
  refine ⟨⟨?_, fun w => isWord_of_mem_words? h⟩, ?_⟩
  all_goals
    obtain ⟨⟨w, tail⟩, hw, he⟩ := Option.map_eq_some_iff.mp h
    obtain ⟨rfl, rfl⟩ := Prod.mk.inj he
  · exact List.cons_ne_nil _ _
  · rw [intercalate_cons, List.append_assoc, alternatives_append, (eq_of_word? hw).1]

theorem IsChoice.intercalate_inj {vs ws : List Text} (hv : IsChoice vs) (hw : IsChoice ws)
    (h : ['|'].intercalate vs = ['|'].intercalate ws) : vs = ws := by
  have hbar : ∀ {us : List Text}, IsChoice us → ∀ u ∈ us, '|' ∉ u := by
    intro us hu u hmem hb
    have := (hu.isWord u hmem).2 '|' hb
    rw [isWordChar_bar] at this
    cases this
  rw [← List.splitOn_intercalate '|' (hbar hv) hv.ne_nil, h,
    List.splitOn_intercalate '|' (hbar hw) hw.ne_nil]

theorem words?_intercalate_append {ws : List Text} (h : IsChoice ws) (t : Text) :
    ∃ vs, words? (['|'].intercalate ws ++ t) = some (vs, behindWord t) ∧
      (behindWord t = t → vs = ws) := by
  obtain ⟨vs, hv⟩ : ∃ vs, words? (['|'].intercalate ws ++ t) = some (vs, behindWord t) := by
    obtain ⟨w, ws, rfl⟩ := List.exists_cons_of_ne_nil h.ne_nil
    obtain ⟨hw, hws⟩ := List.forall_mem_cons.mp h.isWord
    clear h
    induction ws generalizing w with
    | nil =>
      rw [intercalate_cons, List.flatMap_nil, List.append_nil, words?, word?_append hw]
      exact ⟨_, rfl⟩
    | cons v ws ih =>
      obtain ⟨hv, hws⟩ := List.forall_mem_cons.mp hws
      obtain ⟨vs, hvs⟩ := ih v hv hws
      obtain ⟨⟨u, tail⟩, hu, he⟩ := Option.map_eq_some_iff.mp hvs
      rw [List.intercalate_cons_cons, List.append_assoc, List.append_assoc, List.singleton_append,
        words?, word?_append_cons hw isWordChar_bar, Option.map_some, alternatives_bar hu]
      exact ⟨_, congrArg (fun r => some (_, r)) (Prod.mk.inj he).2⟩
  refine ⟨vs, hv, fun ht => ?_⟩
  obtain ⟨hc, he⟩ := of_words? hv
  rw [ht] at he
  exact hc.intercalate_inj h (List.append_cancel_right he).symm

theorem param?_append {name : Text} (hn : IsWord name) {close : Char}
    (hc : isWordChar close = false) (hd : close ≠ '.') (optional spread : Bool) (t : Text) :
    param? optional close (name ++ (if spread then dots else []) ++ close :: t) =
      some (.param name optional spread, t) := by
  cases spread with
  | true =>
    have hw := word?_append_cons hn (c := '.') (by decide) ('.' :: '.' :: close :: t)
    have ha : after? dots ('.' :: '.' :: '.' :: close :: t) = some (close :: t) :=
      after?_eq_some_iff.mpr rfl
    simp [param?, dots, hw]
    simp [dots] at ha
    simp [ha]
  | false =>
    have hw := word?_append_cons hn hc t
    have ha : after? dots (close :: t) = none := by simp [dots, after?, Ne.symm hd]
    simp [param?, hw, ha]

theorem of_param? {optional : Bool} {close : Char} {input rest : Text} {token : Token}
    (h : param? optional close input = some (token, rest)) :
    ∃ name spread, token = .param name optional spread ∧ IsWord name ∧
      input = name ++ (if spread then dots else []) ++ close :: rest := by
  obtain ⟨⟨name, tail⟩, hw, hp⟩ := Option.bind_eq_some_iff.mp h
  obtain ⟨rfl, -⟩ := eq_of_word? hw
  dsimp only at hp
  have hclose : ∀ {spread : Bool} {c : Char} {r : Text},
      (if c = close then some (Token.param name optional spread, r) else none) =
        some (token, rest) → token = .param name optional spread ∧ c :: r = close :: rest := by
    intro spread c r h
    obtain ⟨rfl, he⟩ := Option.ite_none_right_eq_some.mp h
    obtain ⟨rfl, rfl⟩ := Prod.mk.inj (Option.some.inj he)
    exact ⟨rfl, rfl⟩
  cases ha : after? dots tail with
  | some t =>
    rw [ha] at hp
    cases t with
    | nil => cases hp
    | cons c r =>
      obtain ⟨rfl, hr⟩ := hclose hp
      exact ⟨name, true, rfl, isWord_of_word? hw, by rw [after?_eq_some_iff.mp ha, hr]; simp⟩
  | none =>
    rw [ha] at hp
    cases tail with
    | nil => cases hp
    | cons c r =>
      obtain ⟨rfl, hr⟩ := hclose hp
      exact ⟨name, false, rfl, isWord_of_word? hw, by simp [hr]⟩

def Token.behind (token : Token) (t : Text) : Text :=
  match token with
  | literal _ => behindWord t
  | flag _ => behindWord t
  | param _ _ _ => t
  | ellipsis => t

theorem Token.behind_suffix (token : Token) (t : Text) : token.behind t <:+ t := by
  cases token with
  | literal options => exact behindWord_suffix t
  | flag name => exact behindWord_suffix t
  | param name optional spread => exact List.suffix_refl t
  | ellipsis => exact List.suffix_refl t

theorem token?_of_isWordChar {c : Char} (hc : isWordChar c = true) (hd : c ≠ '-') (t : Text) :
    token? (c :: t) = (words? (c :: t)).map fun r => (.literal r.1, r.2) := by
  unfold token?
  split
  · next he =>
    obtain ⟨rfl, -⟩ := List.cons.inj he
    exact absurd hc (by decide)
  · next he =>
    obtain ⟨rfl, -⟩ := List.cons.inj he
    exact absurd hc (by decide)
  · next he => exact absurd (List.cons.inj he).1 hd
  · next he =>
    obtain ⟨rfl, -⟩ := List.cons.inj he
    exact absurd hc (by decide)
  · rfl

theorem exists_of_isChoice {ws : List Text} (h : IsChoice ws) :
    ∃ c r, ['|'].intercalate ws = c :: r ∧ isWordChar c = true := by
  obtain ⟨w, ws, rfl⟩ := List.exists_cons_of_ne_nil h.ne_nil
  obtain ⟨c, r, rfl, hc⟩ := (h.isWord w List.mem_cons_self).exists_cons
  rw [intercalate_cons]
  exact ⟨c, _, rfl, hc⟩

theorem print_param_append (name : Text) (optional spread : Bool) (t : Text) :
    (Token.param name optional spread).print ++ t = (if optional then '[' else '<') ::
      (name ++ (if spread then dots else []) ++ (if optional then ']' else '>') :: t) := by
  simp [Token.print, dots]

/-- A form at the start of a text is read up to its end, or beyond it if it can be read on. -/
theorem token?_print_append {token : Token} (h : token.WellFormed) (t : Text) :
    ∃ found, token? (token.print ++ t) = some (found, token.behind t) ∧
      (token.behind t = t → found = token) := by
  cases token with
  | literal options =>
    obtain ⟨hc, hd⟩ := h
    obtain ⟨c, r, hcr, hw⟩ := exists_of_isChoice hc
    obtain ⟨vs, hvs, hv⟩ := words?_intercalate_append hc t
    rw [hcr] at hd hvs
    have hne : c ≠ '-' := fun he => hd (by rw [he]; rfl)
    refine ⟨.literal vs, ?_, fun ht => congrArg Token.literal (hv ht)⟩
    rw [Token.print, hcr, List.cons_append, token?_of_isWordChar hw hne, ← List.cons_append, hvs]
    rfl
  | flag name =>
    obtain ⟨ws, hc, rfl⟩ := h
    obtain ⟨vs, hvs, hv⟩ := words?_intercalate_append hc t
    refine ⟨.flag (['|'].intercalate vs), ?_, fun ht => by rw [hv ht]⟩
    rw [Token.print, List.cons_append, token?, hvs]
    rfl
  | param name optional spread =>
    refine ⟨.param name optional spread, ?_, fun _ => rfl⟩
    rw [print_param_append]
    cases optional with
    | true => exact param?_append h (by decide) (by decide) true spread t
    | false => exact param?_append h (by decide) (by decide) false spread t
  | ellipsis => exact ⟨.ellipsis, rfl, fun _ => rfl⟩

theorem of_token? {input rest : Text} {token : Token} (h : token? input = some (token, rest)) :
    token.WellFormed ∧ input = token.print ++ rest := by
  unfold token? at h
  split at h
  · obtain ⟨name, spread, rfl, hn, rfl⟩ := of_param? h
    exact ⟨hn, by simp [Token.print, dots]⟩
  · obtain ⟨name, spread, rfl, hn, rfl⟩ := of_param? h
    exact ⟨hn, by simp [Token.print, dots]⟩
  · obtain ⟨⟨ws, tail⟩, hw, he⟩ := Option.map_eq_some_iff.mp h
    obtain ⟨rfl, rfl⟩ := Prod.mk.inj he
    obtain ⟨hc, rfl⟩ := of_words? hw
    exact ⟨⟨ws, hc, rfl⟩, rfl⟩
  · obtain ⟨rfl, rfl⟩ := Prod.mk.inj (Option.some.inj h)
    exact ⟨trivial, rfl⟩
  · next hd _ =>
    obtain ⟨⟨ws, tail⟩, hw, he⟩ := Option.map_eq_some_iff.mp h
    obtain ⟨rfl, rfl⟩ := Prod.mk.inj he
    obtain ⟨hc, rfl⟩ := of_words? hw
    obtain ⟨c, r, hcr, -⟩ := exists_of_isChoice hc
    refine ⟨⟨hc, fun hh => ?_⟩, rfl⟩
    rw [hcr] at hh
    obtain rfl := Option.some.inj hh
    exact hd (r ++ tail) (by rw [hcr]; rfl)

theorem wellFormed_of_mem_tokens {pattern : Text} {usage : Usage}
    (h : ofPattern pattern = .ok usage) {token : Token} (ht : token ∈ usage.tokens) :
    token.WellFormed := by
  obtain ⟨place, rest, hr⟩ := token?_of_mem_scan (scan_of_ofPattern h).1 ht
  exact (of_token? hr).1

/-- The token that is read at a place has the longest form there. -/
theorem token?_eq_some_iff {input rest : Text} {token : Token} :
    token? input = some (token, rest) ↔ token.Longest input rest := by
  have hle : ∀ {found tail}, token? input = some (found, tail) → ∀ other : Token,
      other.WellFormed → other.print <+: input → other.print.length ≤ found.print.length := by
    rintro found tail h other ho ⟨t, rfl⟩
    obtain ⟨found', hf, -⟩ := token?_print_append ho t
    obtain ⟨rfl, rfl⟩ := Prod.mk.inj (Option.some.inj (hf.symm.trans h))
    have hlen := congrArg List.length (of_token? h).2
    have := (other.behind_suffix t).length_le
    simp only [List.length_append] at hlen
    omega
  constructor
  · intro h
    exact ⟨(of_token? h).1, (of_token? h).2, hle h⟩
  · intro h
    obtain ⟨hw, rfl, hmax⟩ := h
    obtain ⟨found, hf, heq⟩ := token?_print_append hw rest
    obtain ⟨hfw, hfe⟩ := of_token? hf
    have hlen := congrArg List.length hfe
    have := hmax found hfw ⟨_, hfe.symm⟩
    have hb : token.behind rest = rest := by
      refine (token.behind_suffix rest).eq_of_length_le ?_
      simp only [List.length_append] at hlen
      omega
    rw [hf, hb, heq hb]

theorem token?_eq_none_iff {input : Text} :
    token? input = none ↔ ∀ token : Token, token.WellFormed → ¬ token.print <+: input := by
  constructor
  · rintro h token hw ⟨t, rfl⟩
    obtain ⟨found, hf, -⟩ := token?_print_append hw t
    rw [h] at hf
    cases hf
  · intro h
    cases ht : token? input with
    | none => rfl
    | some r =>
      obtain ⟨hw, he⟩ := of_token? ht
      exact absurd ⟨r.2, he.symm⟩ (h r.1 hw)

end ChatCommand.Usage
