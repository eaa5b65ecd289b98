import Mathlib.Data.List.Induction
import Mathlib.Data.List.TakeWhile
import Mathlib.Data.Nat.Digits.Defs
import ChatCommand.Number.Decimal

/-! # Numerals

The number that digits spell is printed with the same digits, leading zeros aside, and every number
is spelled by the digits it is printed with. Reading digits one by one into 64 bits succeeds exactly
if their number fits.
-/

namespace ChatCommand.Decimal

variable {c : Char} {digits : Text}

theorem toNat_of_isDigit (h : isDigit c = true) : 48 ≤ c.toNat ∧ c.toNat < 58 := by
  rw [isDigit, Bool.and_eq_true, decide_eq_true_eq, decide_eq_true_eq] at h
  exact ⟨h.1, Nat.lt_succ_of_le h.2⟩

theorem digitValue_eq (c : Char) : digitValue c = c.toNat - 48 := rfl

theorem digitValue_lt (h : isDigit c = true) : digitValue c < 10 := by
  have := toNat_of_isDigit h
  rw [digitValue_eq]
  omega

theorem toDigits_digitValue (h : isDigit c = true) : Nat.toDigits 10 (digitValue c) = [c] := by
  have := toNat_of_isDigit h
  rw [Nat.toDigits_of_lt_base (digitValue_lt h), List.singleton_inj]
  apply Char.toNat_inj.mp
  rw [Nat.toNat_digitChar_of_lt_ten (digitValue_lt h), digitValue_eq]
  omega

theorem digitValue_eq_zero_iff (h : isDigit c = true) : digitValue c = 0 ↔ c = '0' := by
  constructor
  · intro hz
    have hc := toDigits_digitValue h
    rw [hz, Nat.toDigits_zero] at hc
    exact (List.cons.inj hc).1.symm
  · rintro rfl
    rfl

theorem isDigit_of_mem_toDigits {n : Nat} (h : c ∈ Nat.toDigits 10 n) : isDigit c = true :=
  Nat.isDigit_of_mem_toDigits (by decide) (by decide) h

theorem utf8Size_of_isDigit (h : isDigit c = true) : c.utf8Size = 1 := by
  rw [Char.utf8Size_eq_one_iff, UInt32.le_iff_toNat_le]
  exact Nat.le_of_lt (Nat.lt_trans (toNat_of_isDigit h).2 (by decide))

theorem utf8Size_of_digits (h : ∀ c ∈ digits, isDigit c = true) :
    Text.utf8Size digits = digits.length := by
  induction digits with
  | nil => rfl
  | cons c digits ih =>
    obtain ⟨hc, hd⟩ := List.forall_mem_cons.mp h
    rw [Text.utf8Size_cons, utf8Size_of_isDigit hc, ih hd, List.length_cons, Nat.add_comm]

theorem ofDigits_concat (digits : Text) (c : Char) :
    ofDigits (digits ++ [c]) = 10 * ofDigits digits + digitValue c := by
  simp only [ofDigits, List.foldl_append, List.foldl_cons, List.foldl_nil]

theorem ofDigits_toDigits (n : Nat) : ofDigits (Nat.toDigits 10 n) = n :=
  Nat.ofDigitChars_ten_toDigits

theorem ofDigits_lt (h : ∀ c ∈ digits, isDigit c = true) :
    ofDigits digits < 10 ^ digits.length := by
  induction digits using List.reverseRecOn with
  | nil => decide
  | append_singleton digits c ih =>
    obtain ⟨hd, hc⟩ := List.forall_mem_append.mp h
    have hv := digitValue_lt (hc c List.mem_cons_self)
    have hn := ih hd
    rw [ofDigits_concat, List.length_append, List.length_singleton, Nat.pow_succ]
    omega

theorem ofDigits_eq_zero_iff (h : ∀ c ∈ digits, isDigit c = true) :
    ofDigits digits = 0 ↔ ∀ c ∈ digits, c = '0' := by
  induction digits using List.reverseRecOn with
  | nil => simp [ofDigits]
  | append_singleton digits c ih =>
    obtain ⟨hd, hc⟩ := List.forall_mem_append.mp h
    rw [ofDigits_concat, List.forall_mem_append, List.forall_mem_singleton, ← ih hd,
      ← digitValue_eq_zero_iff (hc c List.mem_cons_self)]
    omega

/-- The last of the zeros is kept if there is nothing else. -/
def withoutLeadingZeros (digits : Text) : Text :=
  match digits.dropWhile (· = '0') with
  | [] => ['0']
  | rest => rest

theorem dropWhile_zero_eq_nil_iff : digits.dropWhile (· = '0') = [] ↔ ∀ c ∈ digits, c = '0' := by
  simp only [List.dropWhile_eq_nil_iff, decide_eq_true_eq]

theorem withoutLeadingZeros_eq_dropWhile (h : ¬ ∀ c ∈ digits, c = '0') :
    withoutLeadingZeros digits = digits.dropWhile (· = '0') := by
  unfold withoutLeadingZeros
  split
  · next hd => exact absurd (dropWhile_zero_eq_nil_iff.mp hd) h
  · rfl

theorem withoutLeadingZeros_concat_of_forall (h : ∀ c ∈ digits, c = '0') (c : Char) :
    withoutLeadingZeros (digits ++ [c]) = [c] := by
  have hd : (digits ++ [c]).dropWhile (· = '0') = [c].dropWhile (· = '0') :=
    List.dropWhile_append_of_pos (by simpa using h)
  rw [withoutLeadingZeros, hd]
  by_cases hc : c = '0' <;> simp [hc]

theorem withoutLeadingZeros_append (h : ¬ ∀ c ∈ digits, c = '0') (more : Text) :
    withoutLeadingZeros (digits ++ more) = withoutLeadingZeros digits ++ more := by
  have hn : digits.dropWhile (· = '0') ≠ [] := mt dropWhile_zero_eq_nil_iff.mp h
  have hm : ¬ ∀ c ∈ digits ++ more, c = '0' := fun hm => h (List.forall_mem_append.mp hm).1
  rw [withoutLeadingZeros_eq_dropWhile h, withoutLeadingZeros_eq_dropWhile hm,
    List.dropWhile_append, if_neg (by simpa using hn)]

/-- A number is printed as it was spelled, without leading zeros. -/
theorem toDigits_ofDigits (h : ∀ c ∈ digits, isDigit c = true) :
    Nat.toDigits 10 (ofDigits digits) = withoutLeadingZeros digits := by
  induction digits using List.reverseRecOn with
  | nil => rfl
  | append_singleton digits c ih =>
    obtain ⟨hd, hc⟩ := List.forall_mem_append.mp h
    replace hc := hc c List.mem_cons_self
    rw [ofDigits_concat]
    by_cases hz : ∀ c ∈ digits, c = '0'
    · rw [(ofDigits_eq_zero_iff hd).mpr hz, Nat.mul_zero, Nat.zero_add, toDigits_digitValue hc,
        withoutLeadingZeros_concat_of_forall hz]
    · have hpos : 0 < ofDigits digits :=
        Nat.pos_of_ne_zero fun he => hz ((ofDigits_eq_zero_iff hd).mp he)
      rw [← Nat.toDigits_append_toDigits (by decide) hpos (digitValue_lt hc), ih hd,
        toDigits_digitValue hc, withoutLeadingZeros_append hz]

def pushDigit? (n : UInt64) (c : Char) : Option UInt64 :=
  if h : isDigit c ∧ 10 * n.toNat + digitValue c < UInt64.size then some (.ofNatLT _ h.2) else none

/-- Reads a whole text as a number of 64 bits, in front of which a plus sign may stand. -/
def word64? : Text → Option UInt64
  | [] => none
  | ['+'] => none
  | '+' :: digits => digits.foldlM pushDigit? 0
  | digits => digits.foldlM pushDigit? 0

variable {n w : UInt64}

theorem pushDigit?_eq_some_iff :
    pushDigit? n c = some w ↔ isDigit c = true ∧ w.toNat = 10 * n.toNat + digitValue c := by
  unfold pushDigit?
  split
  · next h =>
    rw [Option.some.injEq, ← UInt64.toNat_inj, UInt64.toNat_ofNatLT]
    exact ⟨fun he => ⟨h.1, he.symm⟩, fun he => he.2.symm⟩
  · next h =>
    refine iff_of_false nofun fun ⟨hc, he⟩ => h ⟨hc, ?_⟩
    rw [← he]
    exact w.toNat_lt

theorem le_foldl_digits (n : Nat) (digits : Text) :
    n ≤ digits.foldl (fun n c => 10 * n + digitValue c) n := by
  induction digits generalizing n with
  | nil => exact Nat.le_refl n
  | cons c digits ih =>
    have := ih (10 * n + digitValue c)
    rw [List.foldl_cons]
    omega

theorem foldlM_pushDigit?_eq_some_iff : digits.foldlM pushDigit? n = some w ↔
    (∀ c ∈ digits, isDigit c = true) ∧
      w.toNat = digits.foldl (fun n c => 10 * n + digitValue c) n.toNat := by
  induction digits generalizing n with
  | nil =>
    rw [List.foldlM_nil, Option.pure_def, Option.some.injEq, ← UInt64.toNat_inj]
    exact ⟨fun h => ⟨nofun, h.symm⟩, fun h => h.2.symm⟩
  | cons c digits ih =>
    rw [List.foldlM_cons, Option.bind_eq_bind, Option.bind_eq_some_iff, List.forall_mem_cons,
      List.foldl_cons]
    simp only [pushDigit?_eq_some_iff, ih]
    constructor
    · rintro ⟨m, ⟨hc, hm⟩, hd, hw⟩
      exact ⟨⟨hc, hd⟩, hm ▸ hw⟩
    · rintro ⟨⟨hc, hd⟩, hw⟩
      -- what was read so far is no larger than the whole number, which fits
      have hlt : 10 * n.toNat + digitValue c < UInt64.size :=
        Nat.lt_of_le_of_lt (hw ▸ le_foldl_digits _ digits) w.toNat_lt
      refine ⟨.ofNatLT _ hlt, ⟨hc, UInt64.toNat_ofNatLT⟩, hd, ?_⟩
      rw [UInt64.toNat_ofNatLT, hw]

theorem word64?_eq_some_iff (hn : digits ≠ []) (h : ∀ c ∈ digits, isDigit c = true) :
    word64? digits = some w ↔ w.toNat = ofDigits digits := by
  have hw : word64? digits = digits.foldlM pushDigit? 0 := by
    unfold word64?
    split
    · exact absurd rfl hn
    · exact absurd (h '+' List.mem_cons_self) (by decide)
    · exact absurd (h '+' List.mem_cons_self) (by decide)
    · rfl
  rw [hw, foldlM_pushDigit?_eq_some_iff]
  exact ⟨fun h => h.2, fun hw => ⟨h, hw⟩⟩

end ChatCommand.Decimal
