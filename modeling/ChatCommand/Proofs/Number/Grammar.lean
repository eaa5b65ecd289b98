import Mathlib.Data.List.TakeWhile
import ChatCommand.Proofs.Number.Numeral
import ChatCommand.Proofs.Number.Rounding

/-! # Grammar of decimal numbers

A decimal number is a sign, which may be missing, digits with a point or without one, and an
exponent, which may be missing. Exactly these texts are read, each as the number that it spells.
-/

namespace ChatCommand.Decimal

variable {t s r w f : Text} {negative : Bool} {e : Int} {q : ℚ}

inductive SpellsSign : Text → Bool → Prop where
  | missing : SpellsSign [] false
  | plus : SpellsSign ['+'] false
  | minus : SpellsSign ['-'] true

/-- Digits without a point, or with a point at any place among them. -/
inductive SpellsMantissa : Text → ℚ → Prop where
  | whole {digits : Text} : digits ≠ [] → (∀ c ∈ digits, isDigit c = true) →
      SpellsMantissa digits (ofDigits digits)
  | pointed {w f : Text} : w ++ f ≠ [] → (∀ c ∈ w ++ f, isDigit c = true) →
      SpellsMantissa (w ++ '.' :: f) (ofDigits w + ofDigits f / 10 ^ f.length)

inductive SpellsExponent : Text → Int → Prop where
  | missing : SpellsExponent [] 0
  | written {letter : Char} {s digits : Text} {negative : Bool} : letter = 'e' ∨ letter = 'E' →
      SpellsSign s negative → digits ≠ [] → (∀ c ∈ digits, isDigit c = true) →
      SpellsExponent (letter :: (s ++ digits))
        (if negative then -(ofDigits digits : Int) else ofDigits digits)

inductive Spells : Text → Bool → ℚ → Prop where
  | mk {s m r : Text} {negative : Bool} {q : ℚ} {e : Int} : SpellsSign s negative →
      SpellsMantissa m q → SpellsExponent r e → Spells (s ++ (m ++ r)) negative (q * 10 ^ e)

theorem spellsSign_of_splitSign (h : splitSign t = (negative, r)) :
    ∃ s, SpellsSign s negative ∧ t = s ++ r := by
  unfold splitSign at h
  split at h
  · cases h
    exact ⟨_, .minus, rfl⟩
  · cases h
    exact ⟨_, .plus, rfl⟩
  · cases h
    exact ⟨_, .missing, rfl⟩

theorem splitSign_append (hs : SpellsSign s negative) (hr : ∀ c ∈ r.head?, c ≠ '-' ∧ c ≠ '+') :
    splitSign (s ++ r) = (negative, r) := by
  cases hs with
  | missing =>
    rw [List.nil_append]
    unfold splitSign
    split
    · exact absurd rfl (hr _ rfl).1
    · exact absurd rfl (hr _ rfl).2
    · rfl
  | plus => rfl
  | minus => rfl

theorem ne_sign_of_isDigit {c : Char} (h : isDigit c = true) : c ≠ '-' ∧ c ≠ '+' := by
  constructor
  · rintro rfl
    cases h
  · rintro rfl
    cases h

theorem signed?_eq_some_iff : signed? t = some e ↔ ∃ s digits negative, SpellsSign s negative ∧
    digits ≠ [] ∧ (∀ c ∈ digits, isDigit c = true) ∧ t = s ++ digits ∧
      e = if negative then -(ofDigits digits : Int) else ofDigits digits := by
  constructor
  · intro h
    obtain ⟨⟨hn, hd⟩, he⟩ := Option.ite_none_right_eq_some.mp h
    obtain ⟨s, hs, ht⟩ := spellsSign_of_splitSign (t := t) rfl
    exact ⟨s, _, _, hs, hn, List.all_eq_true.mp hd, ht, (Option.some.inj he).symm⟩
  · rintro ⟨s, digits, negative, hs, hn, hd, rfl, rfl⟩
    have hsplit : splitSign (s ++ digits) = (negative, digits) :=
      splitSign_append hs fun c hc => ne_sign_of_isDigit (hd c (List.mem_of_mem_head? hc))
    rw [signed?, hsplit]
    exact if_pos ⟨hn, List.all_eq_true.mpr hd⟩

theorem exponent?_eq_some_iff : exponent? t = some e ↔ SpellsExponent t e := by
  constructor
  · intro h
    cases t with
    | nil =>
      obtain rfl := Option.some.inj h
      exact .missing
    | cons letter rest =>
      obtain ⟨hl, h⟩ := Option.ite_none_right_eq_some.mp h
      obtain ⟨s, digits, negative, hs, hn, hd, rfl, rfl⟩ := signed?_eq_some_iff.mp h
      exact .written hl hs hn hd
  · rintro (_ | ⟨hl, hs, hn, hd⟩)
    · rfl
    · rw [exponent?, if_pos hl, signed?_eq_some_iff]
      exact ⟨_, _, _, hs, hn, hd, rfl, rfl⟩

theorem ofDigits_append (w f : Text) :
    ofDigits (w ++ f) = ofDigits w * 10 ^ f.length + ofDigits f := by
  rw [Nat.mul_comm]
  exact (Nat.ofDigitChars_append 0).trans Nat.ofDigitChars_eq_ofDigitChars_zero

theorem magnitude_eq (negative : Bool) (w f : Text) (e : Int) :
    magnitude ⟨negative, ofDigits (w ++ f), e - f.length⟩ =
      (ofDigits w + ofDigits f / 10 ^ f.length) * 10 ^ e := by
  rw [magnitude, ofDigits_append, zpow_sub₀ (by norm_num), zpow_natCast]
  push_cast
  field_simp

theorem run_append (hw : ∀ c ∈ w, isDigit c = true) (hr : ∀ c ∈ r.head?, isDigit c = false) :
    (w ++ r).takeWhile isDigit = w ∧ (w ++ r).dropWhile isDigit = r := by
  rw [List.takeWhile_append_of_pos hw, List.dropWhile_append_of_pos hw]
  cases r with
  | nil => exact ⟨List.append_nil w, rfl⟩
  | cons c r =>
    have hc := hr c rfl
    rw [List.takeWhile_cons_of_neg (by simp [hc]), List.dropWhile_cons_of_neg (by simp [hc])]
    exact ⟨List.append_nil w, rfl⟩

theorem spellsMantissa_of_split (hw : t.takeWhile isDigit = w)
    (hf : splitFraction (t.dropWhile isDigit) = (f, r)) (hn : ¬ (w = [] ∧ f = [])) :
    ∃ m, SpellsMantissa m (ofDigits w + ofDigits f / 10 ^ f.length) ∧ t = m ++ r := by
  have hdigits : ∀ {u : Text}, ∀ c ∈ u.takeWhile isDigit, isDigit c = true :=
    fun _ => List.mem_takeWhile_imp
  have ht : t = w ++ t.dropWhile isDigit := by rw [← hw, List.takeWhile_append_dropWhile]
  unfold splitFraction at hf
  split at hf
  · next rest hp =>
    cases hf
    refine ⟨w ++ '.' :: rest.takeWhile isDigit, .pointed (by simpa using hn) ?_, ?_⟩
    · exact List.forall_mem_append.mpr ⟨hw ▸ hdigits, hdigits⟩
    · rw [List.append_assoc, List.cons_append, List.takeWhile_append_dropWhile, ← hp]
      exact ht
  · cases hf
    refine ⟨w, ?_, ht⟩
    have hwhole : (ofDigits w + ofDigits [] / 10 ^ ([] : Text).length : ℚ) = ofDigits w := by
      simp [ofDigits]
    rw [hwhole]
    exact .whole (by simpa using hn) (hw ▸ hdigits)

theorem split_of_spellsMantissa {m : Text} (hm : SpellsMantissa m q)
    (hr : ∀ c ∈ r.head?, isDigit c = false ∧ c ≠ '.') :
    ∃ w f, (m ++ r).takeWhile isDigit = w ∧ splitFraction ((m ++ r).dropWhile isDigit) = (f, r) ∧
      ¬ (w = [] ∧ f = []) ∧ q = ofDigits w + ofDigits f / 10 ^ f.length := by
  have hrest : ∀ c ∈ r.head?, isDigit c = false := fun c hc => (hr c hc).1
  cases hm with
  | whole hn hw =>
    obtain ⟨htake, hdrop⟩ := run_append hw hrest
    refine ⟨m, [], htake, ?_, by simpa using hn, by simp [ofDigits]⟩
    rw [hdrop]
    unfold splitFraction
    split
    · exact absurd rfl (hr _ rfl).2
    · rfl
  | @pointed w f hn hd =>
    obtain ⟨hw, hf⟩ := List.forall_mem_append.mp hd
    rw [List.append_assoc, List.cons_append]
    obtain ⟨htake, hdrop⟩ := run_append (r := '.' :: (f ++ r)) hw (by simp [isDigit])
    obtain ⟨hfrac, hbehind⟩ := run_append hf hrest
    refine ⟨w, f, htake, ?_, by simpa using hn, rfl⟩
    rw [hdrop, splitFraction, hfrac, hbehind]

theorem ofText?_eq_some_iff {d : Decimal} : ofText? t = some d ↔ ∃ negative r w f rest e,
    splitSign t = (negative, r) ∧ r.takeWhile isDigit = w ∧
      splitFraction (r.dropWhile isDigit) = (f, rest) ∧ ¬ (w = [] ∧ f = []) ∧
        exponent? rest = some e ∧ d = ⟨negative, ofDigits (w ++ f), e - f.length⟩ := by
  simp only [ofText?, Option.ite_none_left_eq_some, Option.map_eq_some_iff]
  constructor
  · rintro ⟨hn, e, he, rfl⟩
    exact ⟨_, _, _, _, _, e, rfl, rfl, rfl, hn, he, rfl⟩
  · rintro ⟨negative, r, w, f, rest, e, hs, rfl, hf, hn, he, rfl⟩
    rw [hs, hf]
    exact ⟨hn, e, he, rfl⟩

theorem SpellsMantissa.ne_sign_of_mem_head? {m : Text} (hm : SpellsMantissa m q) (r : Text) :
    ∀ c ∈ (m ++ r).head?, c ≠ '-' ∧ c ≠ '+' := by
  intro c hc
  cases hm with
  | whole hn hd =>
    obtain ⟨d, w, rfl⟩ := List.exists_cons_of_ne_nil hn
    cases hc
    exact ne_sign_of_isDigit (hd _ List.mem_cons_self)
  | @pointed w f hn hd =>
    cases w with
    | nil =>
      cases hc
      decide
    | cons d w =>
      cases hc
      exact ne_sign_of_isDigit (hd _ List.mem_cons_self)

theorem SpellsExponent.ne_of_mem_head? (hr : SpellsExponent r e) :
    ∀ c ∈ r.head?, isDigit c = false ∧ c ≠ '.' := by
  intro c hc
  cases hr with
  | missing => cases hc
  | written hl =>
    cases hc
    rcases hl with rfl | rfl <;> decide

/-- A text is read as a decimal number exactly if it spells one, with its sign and magnitude. -/
theorem exists_ofText?_iff : (∃ d, ofText? t = some d ∧ d.negative = negative ∧ d.magnitude = q) ↔
    Spells t negative q := by
  constructor
  · rintro ⟨d, h, rfl, rfl⟩
    obtain ⟨negative, r, w, f, rest, e, hs, hw, hf, hn, he, rfl⟩ := ofText?_eq_some_iff.mp h
    obtain ⟨s, hsign, rfl⟩ := spellsSign_of_splitSign hs
    obtain ⟨m, hm, rfl⟩ := spellsMantissa_of_split hw hf hn
    rw [magnitude_eq]
    exact .mk hsign hm (exponent?_eq_some_iff.mp he)
  · rintro ⟨hs, hm, he⟩
    obtain ⟨w, f, hw, hf, hn, rfl⟩ := split_of_spellsMantissa hm he.ne_of_mem_head?
    refine ⟨_, ofText?_eq_some_iff.mpr ⟨negative, _, w, f, _, _, ?_, hw, hf, hn,
      exponent?_eq_some_iff.mpr he, rfl⟩, rfl, magnitude_eq ..⟩
    exact splitSign_append hs (hm.ne_sign_of_mem_head? _)

theorem exists_round?_iff {x : Binary64} : (∃ d, ofText? t = some d ∧ d.round? = some x) ↔
    ∃ negative q, Spells t negative q ∧ x.IsRounded negative q := by
  simp only [round?_eq_some_iff, ← exists_ofText?_iff]
  constructor
  · rintro ⟨d, hd, hx⟩
    exact ⟨_, _, ⟨d, hd, rfl, rfl⟩, hx⟩
  · rintro ⟨negative, q, ⟨d, hd, rfl, rfl⟩, hx⟩
    exact ⟨d, hd, hx⟩

theorem Spells.exists_digit (h : Spells t negative q) : ∃ c ∈ t, isDigit c = true := by
  obtain ⟨-, hm, -⟩ := h
  cases hm with
  | whole hn hd =>
    obtain ⟨c, r, rfl⟩ := List.exists_cons_of_ne_nil hn
    exact ⟨c, by simp, hd c List.mem_cons_self⟩
  | pointed hn hd =>
    obtain ⟨c, hc⟩ := List.exists_mem_of_ne_nil _ hn
    refine ⟨c, ?_, hd c hc⟩
    rcases List.mem_append.mp hc with hc | hc <;> simp [hc]

end ChatCommand.Decimal
