import Mathlib.Logic.ExistsUnique
import ChatCommand.Proofs.Usage.Grammar

/-! # Greedy reading

A pattern may split into blanks and forms in several ways. Reading it from the left, always taking
the longest form, finds such a split whenever there is one. Patterns are compiled by this reading,
which stops at the first place where no form starts or a name repeats.
-/

namespace ChatCommand.Usage

open Text

inductive Splits : Text → Prop where
  | nil : Splits []
  | blank {c : Char} {t : Text} : isBlank c = true → Splits t → Splits (c :: t)
  | form {token : Token} {t : Text} : token.WellFormed → Splits t → Splits (token.print ++ t)

inductive Reads : Text → List Token → Text → Prop where
  | done (rest : Text) : Reads rest [] rest
  | blank {c : Char} {input rest : Text} {tokens : List Token} : isBlank c = true →
      Reads input tokens rest → Reads (c :: input) tokens rest
  | token {input tail rest : Text} {token : Token} {tokens : List Token} :
      token.Longest input tail → Reads tail tokens rest → Reads input (token :: tokens) rest

theorem exists_of_print {token : Token} (h : token.WellFormed) :
    ∃ c r, token.print = c :: r ∧ isBlank c = false := by
  cases token with
  | literal options =>
    obtain ⟨c, r, hcr, hc⟩ := exists_of_isChoice h.1
    exact ⟨c, r, hcr, isBlank_of_isWordChar hc⟩
  | flag name => exact ⟨'-', name, rfl, by decide⟩
  | param name optional spread => cases optional <;> exact ⟨_, _, rfl, by decide⟩
  | ellipsis => exact ⟨'.', _, rfl, by decide⟩

theorem Token.Longest.exists_cons {token : Token} {input rest : Text}
    (h : token.Longest input rest) : ∃ c r, input = c :: r ∧ isBlank c = false := by
  obtain ⟨c, r, hcr, hc⟩ := exists_of_print h.wellFormed
  exact ⟨c, r ++ rest, by rw [h.eq_append, hcr, List.cons_append], hc⟩

theorem Token.Longest.of_append {token : Token} {input rest more : Text}
    (h : token.Longest (input ++ more) (rest ++ more)) : token.Longest input rest := by
  refine ⟨h.wellFormed, ?_, fun other ho hp => h.length_le other ho ?_⟩
  · exact List.append_cancel_right (h.eq_append.trans (List.append_assoc _ _ _).symm)
  · exact hp.trans (List.prefix_append _ _)

theorem behindWord_print_append {token : Token} (h : token.WellFormed) (t : Text) :
    behindWord (token.print ++ t) = behindWord t ∨
      behindWord (token.print ++ t) = token.print ++ t := by
  cases token with
  | literal options =>
    obtain ⟨vs, hv, -⟩ := words?_intercalate_append h.1 t
    exact .inl (rest_of_words? hv).symm
  | flag name =>
    obtain ⟨ws, hc, rfl⟩ := h
    obtain ⟨vs, hv, -⟩ := words?_intercalate_append hc t
    refine .inl ?_
    rw [Token.print, List.cons_append, behindWord_cons (by decide)]
    exact (rest_of_words? hv).symm
  | param name optional spread =>
    refine .inr ?_
    cases optional <;> exact behindWord_of_ne (by decide) (by decide) _
  | ellipsis => exact .inr (behindWord_of_ne (by decide) (by decide) _)

theorem splits_behindWord {t : Text} (h : Splits t) : Splits (behindWord t) := by
  -- reading on from within a word takes a form that stands next as a whole or not at all
  induction h with
  | nil =>
    rw [behindWord_nil]
    exact .nil
  | @blank c t hc ht _ =>
    rw [behindWord_of_isBlank hc]
    exact .blank hc ht
  | @form token t hw ht ih =>
    rcases behindWord_print_append hw t with he | he
    · rw [he]
      exact ih
    · rw [he]
      exact .form hw ht

theorem Splits.behind {t : Text} (h : Splits t) (token : Token) : Splits (token.behind t) := by
  cases token with
  | literal options => exact splits_behindWord h
  | flag name => exact splits_behindWord h
  | param name optional spread => exact h
  | ellipsis => exact h

/-- Where a split text does not start with a blank, a token is read and leaves a split text. -/
theorem Splits.exists_longest {c : Char} {t : Text} (h : Splits (c :: t))
    (hc : isBlank c = false) : ∃ (token : Token) (rest : Text), token.Longest (c :: t) rest ∧
      Splits rest := by
  generalize hi : c :: t = input at h
  cases h with
  | nil => cases hi
  | blank hb _ =>
    obtain ⟨rfl, rfl⟩ := List.cons.inj hi
    rw [hc] at hb
    cases hb
  | @form token rest hw hr =>
    obtain ⟨found, hf, -⟩ := token?_print_append hw rest
    exact ⟨found, token.behind rest, token?_eq_some_iff.mp hf, hr.behind token⟩

theorem Splits.of_blank {c : Char} {t : Text} (h : Splits (c :: t)) (hc : isBlank c = true) :
    Splits t := by
  generalize hi : c :: t = input at h
  cases h with
  | nil => cases hi
  | blank _ ht => exact (List.cons.inj hi).2 ▸ ht
  | @form token rest hw _ =>
    obtain ⟨d, r, hd, hb⟩ := exists_of_print hw
    rw [hd] at hi
    rw [(List.cons.inj hi).1, hb] at hc
    cases hc

theorem Reads.splits {input : Text} {tokens : List Token} (h : Reads input tokens []) :
    Splits input := by
  generalize hr : ([] : Text) = rest at h
  induction h with
  | done => exact hr ▸ .nil
  | blank hc _ ih => exact .blank hc (ih hr)
  | token ht _ ih => exact ht.eq_append ▸ .form ht.wellFormed (ih hr)

theorem Splits.exists_reads {input : Text} (h : Splits input) :
    ∃ tokens, Reads input tokens [] := by
  induction hn : input.length using Nat.strong_induction_on generalizing input with
  | h n ih =>
    cases input with
    | nil => exact ⟨[], .done []⟩
    | cons c t =>
      cases hc : isBlank c with
      | true =>
        obtain ⟨tokens, ht⟩ := ih t.length (by simp [← hn]) (h.of_blank hc) rfl
        exact ⟨tokens, .blank hc ht⟩
      | false =>
        obtain ⟨token, rest, hl, hr⟩ := h.exists_longest hc
        have hlt := length_of_token? (token?_eq_some_iff.mpr hl)
        obtain ⟨tokens, ht⟩ := ih rest.length (hn ▸ hlt) hr rfl
        exact ⟨token :: tokens, .token hl ht⟩

theorem Reads.unique {input : Text} {tokens others : List Token} (h : Reads input tokens [])
    (ho : Reads input others []) : tokens = others := by
  generalize hr : ([] : Text) = rest at h
  induction h generalizing others with
  | done =>
    cases hr
    cases ho with
    | done => rfl
    | token hl _ =>
      obtain ⟨c, r, he, -⟩ := hl.exists_cons
      cases he
  | @blank c input rest tokens hc _ ih =>
    cases ho with
    | blank _ ho => exact ih ho hr
    | token hl _ =>
      obtain ⟨d, r, he, hd⟩ := hl.exists_cons
      rw [(List.cons.inj he).1, hd] at hc
      cases hc
  | @token input tail rest token tokens hl _ ih =>
    cases ho with
    | done =>
      obtain ⟨c, r, he, -⟩ := hl.exists_cons
      cases he
    | blank hc _ =>
      obtain ⟨d, r, he, hd⟩ := hl.exists_cons
      rw [(List.cons.inj he).1, hd] at hc
      cases hc
    | token hl' ho =>
      have he := (token?_eq_some_iff.mpr hl).symm.trans (token?_eq_some_iff.mpr hl')
      obtain ⟨rfl, rfl⟩ := Prod.mk.inj (Option.some.inj he)
      rw [ih ho hr]

section Scan

variable {seen : List Text} {input tail rest : Text} {token : Token} {tokens : List Token}

theorem scan_nil (seen : List Text) : scan seen [] = .ok [] := by rw [scan.eq_def]

theorem scan_blank {c : Char} (hc : isBlank c = true) (seen : List Text) (t : Text) :
    scan seen (c :: t) = scan seen t := by
  rw [scan.eq_def]
  exact if_pos hc

theorem scan_unreadable {c : Char} {t : Text} (hc : isBlank c = false)
    (h : token? (c :: t) = none) (seen : List Text) :
    scan seen (c :: t) = .error (.unreadable (c :: t)) := by
  rw [scan.eq_def]
  dsimp only
  rw [if_neg (by simp [hc])]
  split
  · rfl
  · next h' =>
    rw [h] at h'
    cases h'

theorem scan_longest (h : token.Longest input tail) (seen : List Text) :
    scan seen input = match token.key? with
      | some key =>
        if key ∈ seen then .error (.repeated key) else (token :: ·) <$> scan (key :: seen) tail
      | none => (token :: ·) <$> scan seen tail := by
  obtain ⟨c, r, rfl, hc⟩ := h.exists_cons
  rw [scan.eq_def]
  dsimp only
  rw [if_neg (by simp [hc])]
  split
  · next h' =>
    rw [token?_eq_some_iff.mpr h] at h'
    cases h'
  · next h' =>
    rw [token?_eq_some_iff.mpr h] at h'
    obtain ⟨rfl, rfl⟩ := Prod.mk.inj (Option.some.inj h')
    rfl

theorem scan_fresh (h : token.Longest input tail)
    (hf : ∀ key, token.key? = some key → key ∉ seen) :
    scan seen input = (token :: ·) <$> scan (token.key?.toList ++ seen) tail := by
  rw [scan_longest h]
  cases hk : token.key? with
  | none => rfl
  | some key => exact if_neg (hf key hk)

theorem scan_repeated {key : Text} (h : token.Longest input tail) (hk : token.key? = some key)
    (hs : key ∈ seen) : scan seen input = .error (.repeated key) := by
  rw [scan_longest h, hk]
  exact if_pos hs

theorem reads_of_scan (h : scan seen input = .ok tokens) : Reads input tokens [] := by
  fun_induction scan seen input generalizing tokens with
  | case1 =>
    cases h
    exact .done []
  | case2 seen c rest hc ih => exact .blank hc (ih h)
  | case3 => cases h
  | case4 => cases h
  | case5 seen c rest _ t rest' hr key _ _ ih =>
    obtain ⟨more, hm, rfl⟩ := map_eq_ok_iff.mp h
    exact .token (token?_eq_some_iff.mp hr) (ih hm)
  | case6 seen c rest _ t rest' hr _ ih =>
    obtain ⟨more, hm, rfl⟩ := map_eq_ok_iff.mp h
    exact .token (token?_eq_some_iff.mp hr) (ih hm)

theorem filterMap_key?_cons (token : Token) (tokens : List Token) :
    (token :: tokens).filterMap Token.key? =
      token.key?.toList ++ tokens.filterMap Token.key? := by
  cases hk : token.key? with
  | none => exact List.filterMap_cons_none hk
  | some key => exact List.filterMap_cons_some hk

theorem scan_of_reads (h : Reads input tokens [])
    (hn : (seen.reverse ++ tokens.filterMap Token.key?).Nodup) : scan seen input = .ok tokens := by
  generalize hr : ([] : Text) = rest at h
  induction h generalizing seen with
  | done => exact hr ▸ scan_nil seen
  | blank hc _ ih => exact (scan_blank hc seen _).trans (ih hn hr)
  | @token input tail rest token tokens ht _ ih =>
    rw [filterMap_key?_cons, ← List.append_assoc] at hn
    have hf : ∀ key, token.key? = some key → key ∉ seen := by
      intro key hk hs
      rw [hk] at hn
      exact (List.nodup_append.mp (List.nodup_append.mp hn).1).2.2 key (List.mem_reverse.mpr hs) key
        List.mem_cons_self rfl
    rw [scan_fresh ht hf, ih ?_ hr]
    · rfl
    · cases hk : token.key? with
      | none => simpa [hk] using hn
      | some key => simpa [hk] using hn

/-- Why the reading goes no further: no form starts here, or the one that is read has a name that
was seen before. -/
inductive Stops (seen : List Text) : Text → Stop → Prop where
  | unreadable {c : Char} {t : Text} : isBlank c = false →
      (∀ token : Token, token.WellFormed → ¬ token.print <+: c :: t) →
      Stops seen (c :: t) (.unreadable (c :: t))
  | repeated {input tail key : Text} {token : Token} : token.Longest input tail →
      token.key? = some key → key ∈ seen → Stops seen input (.repeated key)

theorem Stops.mono {seen' : List Text} {stop : Stop} (h : Stops seen input stop)
    (hs : ∀ key ∈ seen, key ∈ seen') : Stops seen' input stop := by
  cases h with
  | unreadable hc hn => exact .unreadable hc hn
  | repeated hl hk hm => exact .repeated hl hk (hs _ hm)

theorem stops_or_longest {c : Char} {t : Text} (hc : isBlank c = false) (seen : List Text) :
    (∃ stop, scan seen (c :: t) = .error stop ∧ Stops seen (c :: t) stop) ∨
      ∃ (token : Token) (tail : Text), token.Longest (c :: t) tail ∧
        ∀ key, token.key? = some key → key ∉ seen := by
  cases ht : token? (c :: t) with
  | none =>
    exact .inl ⟨_, scan_unreadable hc ht seen, .unreadable hc (token?_eq_none_iff.mp ht)⟩
  | some r =>
    have hl := token?_eq_some_iff.mp ht
    by_cases hf : ∀ key, r.1.key? = some key → key ∉ seen
    · exact .inr ⟨r.1, r.2, hl, hf⟩
    · obtain ⟨key, hk, hs⟩ : ∃ key, r.1.key? = some key ∧ key ∈ seen := by simpa using hf
      exact .inl ⟨_, scan_repeated hl hk hs, .repeated hl hk hs⟩

/-- A reading that stops has read everything before that place, which can be read alone. -/
theorem stops_of_scan {stop : Stop} (h : scan seen input = .error stop) :
    ∃ before tokens rest, input = before ++ rest ∧ Reads input tokens rest ∧
      scan seen before = .ok tokens ∧ Stops (tokens.filterMap Token.key? ++ seen) rest stop := by
  induction hn : input.length using Nat.strong_induction_on generalizing input seen with
  | h n ih =>
    cases input with
    | nil =>
      rw [scan_nil] at h
      cases h
    | cons c t =>
      cases hc : isBlank c with
      | true =>
        rw [scan_blank hc] at h
        obtain ⟨before, tokens, rest, rfl, hr, hb, hs⟩ := ih t.length (by simp [← hn]) h rfl
        exact ⟨c :: before, tokens, rest, rfl, .blank hc hr, (scan_blank hc _ _).trans hb, hs⟩
      | false =>
        rcases stops_or_longest hc seen with ⟨stop', he, hs⟩ | ⟨token, tail, hl, hf⟩
        · obtain rfl := Except.error.inj (he.symm.trans h)
          exact ⟨[], [], c :: t, rfl, .done _, scan_nil seen, hs⟩
        · rw [scan_fresh hl hf] at h
          have hlt := length_of_token? (token?_eq_some_iff.mpr hl)
          obtain ⟨before, tokens, rest, rfl, hr, hb, hs⟩ :=
            ih tail.length (hn ▸ hlt) (map_eq_error_iff.mp h) rfl
          refine ⟨token.print ++ before, token :: tokens, rest, ?_, .token hl hr, ?_, ?_⟩
          · rw [hl.eq_append, List.append_assoc]
          · -- The token stays the longest when the text behind the stop is cut off.
            rw [hl.eq_append, ← List.append_assoc] at hl
            rw [scan_fresh hl.of_append hf, hb]
            rfl
          · refine hs.mono fun key hk => ?_
            rw [filterMap_key?_cons]
            simp only [List.mem_append] at hk ⊢
            tauto

end Scan

section Pattern

variable {pattern : Text}

theorem ofPattern_eq_ok_iff {usage : Usage} : ofPattern pattern = .ok usage ↔
    usage.pattern = pattern ∧ Reads pattern usage.tokens [] ∧ usage.keys.Nodup := by
  constructor
  · intro h
    exact ⟨(scan_of_ofPattern h).2, reads_of_scan (scan_of_ofPattern h).1, nodup_keys h⟩
  · rintro ⟨rfl, hr, hn⟩
    have hs : scan [] usage.pattern = .ok usage.tokens := scan_of_reads hr hn
    rw [ofPattern, hs]

theorem exists_ofPattern_iff : (∃ usage, ofPattern pattern = .ok usage) ↔
    Splits pattern ∧
      ∃ tokens, Reads pattern tokens [] ∧ (tokens.filterMap Token.key?).Nodup := by
  constructor
  · rintro ⟨usage, hu⟩
    obtain ⟨-, hr, hn⟩ := ofPattern_eq_ok_iff.mp hu
    exact ⟨hr.splits, usage.tokens, hr, hn⟩
  · rintro ⟨-, tokens, hr, hn⟩
    exact ⟨⟨pattern, tokens⟩, ofPattern_eq_ok_iff.mpr ⟨rfl, hr, hn⟩⟩

theorem exists_stops {stop : Stop} (h : scan [] pattern = .error stop) :
    ∃ before tokens rest, pattern = before ++ rest ∧ ofPattern before = .ok ⟨before, tokens⟩ ∧
      Reads pattern tokens rest ∧ Stops (tokens.filterMap Token.key?) rest stop := by
  obtain ⟨before, tokens, rest, he, hr, hb, hs⟩ := stops_of_scan h
  refine ⟨before, tokens, rest, he, ?_, hr, ?_⟩
  · rw [ofPattern, hb]
  · rwa [List.append_nil] at hs

theorem of_invalidCharacter {p : Text} {position : Nat}
    (h : ofPattern pattern = .error (.invalidCharacter p position)) :
    p = pattern ∧ ∃ before c rest, pattern = before ++ c :: rest ∧ utf8Size before = position ∧
      isBlank c = false ∧ (∀ token : Token, token.WellFormed → ¬ token.print <+: c :: rest) ∧
      ∃ usage, ofPattern before = .ok usage := by
  unfold ofPattern at h
  split at h
  · cases h
  · next stop hs =>
    obtain ⟨rfl, rfl⟩ := PatternError.invalidCharacter.inj (Except.error.inj h)
    obtain ⟨before, tokens, rest, he, hb, -, hstop⟩ := exists_stops hs
    cases hstop with
    | @unreadable c t hc hn =>
      refine ⟨rfl, before, c, t, he, ?_, hc, hn, _, hb⟩
      rw [he, utf8Size_append, Nat.add_sub_cancel]
  · cases h

theorem of_duplicateKey {key : Text} (h : ofPattern pattern = .error (.duplicateKey key)) :
    ∃ (before : Text) (tokens : List Token) (token : Token) (rest tail : Text),
      pattern = before ++ rest ∧ ofPattern before = .ok ⟨before, tokens⟩ ∧
      Reads pattern tokens rest ∧ token.Longest rest tail ∧ token.key? = some key ∧
      (tokens.filterMap Token.key?).Nodup ∧ key ∈ tokens.filterMap Token.key? := by
  unfold ofPattern at h
  split at h
  · cases h
  · cases h
  · next hs =>
    obtain rfl := PatternError.duplicateKey.inj (Except.error.inj h)
    obtain ⟨before, tokens, rest, he, hb, hr, hstop⟩ := exists_stops hs
    cases hstop with
    | repeated hl hk hm =>
      exact ⟨before, tokens, _, rest, _, he, hb, hr, hl, hk, (ofPattern_eq_ok_iff.mp hb).2.2, hm⟩

end Pattern

/-- A pattern is compiled if it splits into blanks and forms and the names of its greedy reading
differ. Otherwise the error is about the first place where this fails: everything before it
compiles, and either no form starts there or the one that is read has the name of an earlier one. -/
theorem ofPattern_accepts_grammar (pattern : Text) :
    ((∃ usage, ofPattern pattern = .ok usage) ↔ Splits pattern ∧
      ∃ tokens, Reads pattern tokens [] ∧ (tokens.filterMap Token.key?).Nodup) ∧
    (Splits pattern → ∃! tokens, Reads pattern tokens []) ∧
    (∀ usage, ofPattern pattern = .ok usage →
      usage.pattern = pattern ∧ Reads pattern usage.tokens []) ∧
    (∀ p position, ofPattern pattern = .error (.invalidCharacter p position) →
      p = pattern ∧ ∃ before c rest, pattern = before ++ c :: rest ∧ utf8Size before = position ∧
        isBlank c = false ∧ (∀ token : Token, token.WellFormed → ¬ token.print <+: c :: rest) ∧
        ∃ usage, ofPattern before = .ok usage) ∧
    (∀ key, ofPattern pattern = .error (.duplicateKey key) →
      ∃ (before : Text) (tokens : List Token) (token : Token) (rest tail : Text),
        pattern = before ++ rest ∧ ofPattern before = .ok ⟨before, tokens⟩ ∧
        Reads pattern tokens rest ∧ token.Longest rest tail ∧ token.key? = some key ∧
        (tokens.filterMap Token.key?).Nodup ∧ key ∈ tokens.filterMap Token.key?) := by
  refine ⟨exists_ofPattern_iff, fun h => ?_, fun usage hu => ?_,
    fun p position h => of_invalidCharacter h, fun key h => of_duplicateKey h⟩
  · obtain ⟨tokens, hr⟩ := h.exists_reads
    exact ⟨tokens, hr, fun others ho => ho.unique hr⟩
  · obtain ⟨hp, hr, -⟩ := ofPattern_eq_ok_iff.mp hu
    exact ⟨hp, hr⟩

theorem ofPattern_accepts_grammar_refused :
    (∃ before c rest, "-a| <b>".toList = before ++ c :: rest ∧ utf8Size before = 2 ∧
      isBlank c = false ∧ (∀ token : Token, token.WellFormed → ¬ token.print <+: c :: rest) ∧
      ∃ usage, ofPattern before = .ok usage) ∧
    ∃ (before : Text) (tokens : List Token) (token : Token) (rest tail : Text),
      "-a [a...]".toList = before ++ rest ∧ ofPattern before = .ok ⟨before, tokens⟩ ∧
      Reads "-a [a...]".toList tokens rest ∧ token.Longest rest tail ∧
      token.key? = some ['a'] ∧ (tokens.filterMap Token.key?).Nodup ∧
      ['a'] ∈ tokens.filterMap Token.key? := by
  have hi : ofPattern "-a| <b>".toList = .error (.invalidCharacter "-a| <b>".toList 2) := by
    decide +kernel
  have hd : ofPattern "-a [a...]".toList = .error (.duplicateKey ['a']) := by decide +kernel
  exact ⟨((ofPattern_accepts_grammar _).2.2.2.1 _ _ hi).2,
    (ofPattern_accepts_grammar _).2.2.2.2 _ hd⟩

end ChatCommand.Usage
