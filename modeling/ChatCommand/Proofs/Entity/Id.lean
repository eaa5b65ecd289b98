import Mathlib.Data.Nat.Digits.Defs
import ChatCommand.Entity.Id
import ChatCommand.Proofs.Number.Numeral

/-! # Numerals of ids

The numerals that ids are read from, and the decimal value of a numeral. It fits into 64 bits, and
an id is printed as its numeral without leading zeros. So an id can be read from what it is printed
as exactly if it has 17 to 19 digits of its own.
-/

namespace ChatCommand.Id

open Decimal

structure IsNumeral (t : Text) : Prop where
  minLength : 17 ≤ t.length
  maxLength : t.length ≤ 19
  digits : ∀ c ∈ t, isDigit c = true

/-- The positional value of digits, the last of which counts ones. -/
def decimalValue (digits : Text) : Nat := Nat.ofDigits 10 (digits.map digitValue).reverse

theorem ofDigits_eq_decimalValue (digits : Text) : ofDigits digits = decimalValue digits := by
  rw [ofDigits, decimalValue, Nat.ofDigits_eq_foldr, List.foldr_reverse, List.foldl_map]
  simp only [Nat.cast_id, Nat.add_comm]

theorem ofText?_eq_some_iff {t : Text} {id : Id} :
    ofText? t = some id ↔ IsNumeral t ∧ id = ⟨decimalValue t⟩ := by
  rw [ofText?, ofDigits_eq_decimalValue]
  constructor
  · intro h
    split at h
    · next hd => exact ⟨⟨hd.1, hd.2.1, List.all_eq_true.mp hd.2.2⟩, (Option.some.inj h).symm⟩
    · cases h
  · rintro ⟨⟨hl, hu, hd⟩, rfl⟩
    rw [if_pos ⟨hl, hu, List.all_eq_true.mpr hd⟩]

theorem ofText?_eq_none_of_cons {c : Char} (hc : isDigit c = false) (t : Text) :
    ofText? (c :: t) = none := by
  rw [Option.eq_none_iff_forall_ne_some]
  intro id h
  have := (ofText?_eq_some_iff.mp h).1.digits c List.mem_cons_self
  rw [hc] at this
  cases this

theorem IsNumeral.exists_cons {t : Text} (h : IsNumeral t) :
    ∃ c r, t = c :: r ∧ isDigit c = true := by
  have hn : t ≠ [] := List.ne_nil_of_length_pos (Nat.lt_of_lt_of_le (by decide) h.minLength)
  obtain ⟨c, r, rfl⟩ := List.exists_cons_of_ne_nil hn
  exact ⟨c, r, rfl, h.digits c List.mem_cons_self⟩

theorem IsNumeral.ne_nil {t : Text} (h : IsNumeral t) : t ≠ [] := by
  obtain ⟨c, r, rfl, -⟩ := h.exists_cons
  exact List.cons_ne_nil c r

theorem IsNumeral.decimalValue_lt {t : Text} (h : IsNumeral t) : decimalValue t < 10 ^ 19 := by
  rw [← ofDigits_eq_decimalValue]
  apply Nat.lt_of_lt_of_le (ofDigits_lt h.digits)
  exact Nat.pow_le_pow_right (by decide) h.maxLength

theorem IsNumeral.exists_word64? {t : Text} (h : IsNumeral t) :
    ∃ w, word64? t = some w ∧ w.toNat = decimalValue t := by
  have hlt : decimalValue t < UInt64.size := Nat.lt_trans h.decimalValue_lt (by decide)
  refine ⟨.ofNatLT _ hlt, (word64?_eq_some_iff h.ne_nil h.digits).mpr ?_, UInt64.toNat_ofNatLT⟩
  rw [UInt64.toNat_ofNatLT, ofDigits_eq_decimalValue]

/-- Reads the number of an id after its size in bytes and then its characters were checked. -/
def readWord? (t : Text) : Option UInt64 :=
  if 17 ≤ Text.utf8Size t ∧ Text.utf8Size t ≤ 19 then
    if t.all isDigit then word64? t else none
  else none

/-- Digits have one byte each, so it does not matter which of size and length is checked. -/
theorem isNumeral_iff_utf8Size {t : Text} : IsNumeral t ↔
    (17 ≤ Text.utf8Size t ∧ Text.utf8Size t ≤ 19) ∧ t.all isDigit = true := by
  constructor
  · intro h
    rw [utf8Size_of_digits h.digits]
    exact ⟨⟨h.minLength, h.maxLength⟩, List.all_eq_true.mpr h.digits⟩
  · rintro ⟨hs, hd⟩
    replace hd := List.all_eq_true.mp hd
    rw [utf8Size_of_digits hd] at hs
    exact ⟨hs.1, hs.2, hd⟩

theorem readWord?_eq_some_iff {t : Text} {w : UInt64} :
    readWord? t = some w ↔ IsNumeral t ∧ w.toNat = decimalValue t := by
  unfold readWord?
  rw [Option.ite_none_right_eq_some, Option.ite_none_right_eq_some, ← and_assoc,
    ← isNumeral_iff_utf8Size]
  apply and_congr_right
  intro hn
  rw [word64?_eq_some_iff hn.ne_nil hn.digits, ofDigits_eq_decimalValue]

theorem print_decimalValue {t : Text} (h : IsNumeral t) :
    print ⟨decimalValue t⟩ = withoutLeadingZeros t := by
  rw [print, ← ofDigits_eq_decimalValue, toDigits_ofDigits h.digits]

theorem isNumeral_toDigits_iff {n : Nat} :
    IsNumeral (Nat.toDigits 10 n) ↔ 10 ^ 16 ≤ n ∧ n < 10 ^ 19 := by
  have hmin : (Nat.toDigits 10 n).length ≤ 16 ↔ n < 10 ^ 16 :=
    Nat.length_toDigits_le_iff (by decide) (by decide)
  have hmax : (Nat.toDigits 10 n).length ≤ 19 ↔ n < 10 ^ 19 :=
    Nat.length_toDigits_le_iff (by decide) (by decide)
  constructor
  · intro h
    have := h.minLength
    exact ⟨by omega, hmax.mp h.maxLength⟩
  · rintro ⟨hl, hu⟩
    exact ⟨by omega, hmax.mpr hu, fun c hc => isDigit_of_mem_toDigits hc⟩

theorem ofText?_print (n : Nat) :
    ofText? (print ⟨n⟩) = if 10 ^ 16 ≤ n ∧ n < 10 ^ 19 then some ⟨n⟩ else none := by
  have hv : decimalValue (Nat.toDigits 10 n) = n := by
    rw [← ofDigits_eq_decimalValue, ofDigits_toDigits]
  split
  · next h =>
    exact ofText?_eq_some_iff.mpr ⟨isNumeral_toDigits_iff.mpr h, by rw [print, hv]⟩
  · next h =>
    rw [Option.eq_none_iff_forall_ne_some]
    exact fun id hi => h (isNumeral_toDigits_iff.mp (ofText?_eq_some_iff.mp hi).1)

/-- An id is read from every numeral and from nothing else. Its value fits into 64 bits, so that
the steps of reading it agree, and it is printed without leading zeros. An id is read back from what
it is printed as if it has 17 to 19 digits of its own, and nothing is read otherwise. -/
theorem ofText?_print_range :
    (∀ t, (∃ id, ofText? t = some id) ↔ IsNumeral t) ∧
    (∀ t id, ofText? t = some id → id.value = decimalValue t ∧ id.value < 10 ^ 19 ∧
      id.value < 2 ^ 64 ∧ (∃ w, word64? t = some w ∧ w.toNat = id.value) ∧
      id.print = withoutLeadingZeros t) ∧
    (∀ t, (ofText? t).map value = (readWord? t).map UInt64.toNat) ∧
    ∀ n, ofText? (print ⟨n⟩) = if 10 ^ 16 ≤ n ∧ n < 10 ^ 19 then some ⟨n⟩ else none := by
  refine ⟨fun t => ?_, fun t id h => ?_, fun t => ?_, ofText?_print⟩
  · simp only [ofText?_eq_some_iff, exists_and_left, exists_eq, and_true]
  · obtain ⟨hn, rfl⟩ := ofText?_eq_some_iff.mp h
    have hlt := hn.decimalValue_lt
    exact ⟨rfl, hlt, Nat.lt_trans hlt (by decide), hn.exists_word64?, print_decimalValue hn⟩
  · ext n
    rw [Option.map_eq_some_iff, Option.map_eq_some_iff]
    simp only [ofText?_eq_some_iff, readWord?_eq_some_iff]
    constructor
    · rintro ⟨_, ⟨hn, rfl⟩, rfl⟩
      obtain ⟨w, -, hw⟩ := hn.exists_word64?
      exact ⟨w, ⟨hn, hw⟩, hw⟩
    · rintro ⟨w, ⟨hn, hw⟩, rfl⟩
      exact ⟨_, ⟨hn, rfl⟩, hw.symm⟩

/-- Zeros in front of an id are lost when it is printed, and then there are too few digits to read
it again. The largest id that can be read has 19 nines. -/
theorem ofText?_print_range_zeros :
    ofText? "00000000000000042".toList = some ⟨42⟩ ∧ print ⟨42⟩ = "42".toList ∧
      ofText? (print ⟨42⟩) = none ∧
      ofText? (print ⟨9999999999999999999⟩) = some ⟨9999999999999999999⟩ ∧
      ofText? (print ⟨10000000000000000000⟩) = none := by
  obtain ⟨-, hvalue, -, hprint⟩ := ofText?_print_range
  have h : ofText? "00000000000000042".toList = some ⟨42⟩ := by decide
  exact ⟨h, (hvalue _ _ h).2.2.2.2, hprint 42, hprint 9999999999999999999,
    hprint 10000000000000000000⟩

end ChatCommand.Id
