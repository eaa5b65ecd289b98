import ChatCommand.Argument.Basic
import ChatCommand.Proofs.Number.Grammar
import ChatCommand.Proofs.Text.LetterCase
import ChatCommand.Proofs.Text.Spacing

/-! # Numbers in arguments

An argument is a number exactly if it spells a decimal number between blanks which is rounded to a
finite double in the range. The words for infinity and for what is not a number are no numbers, so
that it makes no difference whether a digit is looked for first.
-/

namespace ChatCommand

open Text Decimal

inductive Double where
  | finite (x : Binary64)
  | infinite (negative : Bool)
  | nan
  deriving DecidableEq, Repr

namespace Double

variable {t word : Text} {negative : Bool} {x : Binary64}

def isFinite : Double → Bool
  | finite _ => true
  | infinite _ => false
  | nan => false

/-- The double nearest to the number, which is infinite if the number is too large. -/
def ofDecimal (d : Decimal) : Double :=
  match d.round? with
  | some x => finite x
  | none => infinite d.negative

def ofWord? (negative : Bool) (word : Text) : Option Double :=
  if SameLetters word "inf".toList ∨ SameLetters word "infinity".toList then
    some (infinite negative)
  else if SameLetters word "nan".toList then some nan
  else none

/-- Reads the whole text as a decimal number, or as a word behind a sign that may be missing. -/
def ofText? (t : Text) : Option Double :=
  let (negative, word) := splitSign t
  ((Decimal.ofText? t).map ofDecimal).or (ofWord? negative word)

theorem ofDecimal_eq_finite_iff {d : Decimal} : ofDecimal d = finite x ↔ d.round? = some x := by
  unfold ofDecimal
  split <;> simp_all

theorem ofWord?_ne_finite : ofWord? negative word ≠ some (finite x) := by
  unfold ofWord?
  split
  · simp
  · split <;> simp

theorem ofText?_eq_finite_iff : ofText? t = some (finite x) ↔
    ∃ negative q, Spells t negative q ∧ x.IsRounded negative q := by
  rw [← exists_round?_iff, ofText?]
  simp only [Option.or_eq_some_iff, ofWord?_ne_finite, and_false, or_false, Option.map_eq_some_iff,
    ofDecimal_eq_finite_iff]

def IsWord (word : Text) : Prop :=
  ∃ w ∈ ["inf".toList, "infinity".toList, "nan".toList], SameLetters word w

theorem exists_ofWord?_iff : (∃ v, ofWord? negative word = some v) ↔ IsWord word := by
  simp only [ofWord?, IsWord, List.mem_cons, List.not_mem_nil, or_false, exists_eq_or_imp,
    exists_eq_left]
  split
  · next h => exact iff_of_true ⟨_, rfl⟩ (or_assoc.mp (.inl h))
  · next h =>
    split
    · next hn => exact iff_of_true ⟨_, rfl⟩ (.inr (.inr hn))
    · next hn => exact iff_of_false (by simp) fun hw => (or_assoc.mpr hw).elim h hn

theorem IsWord.not_mem (h : IsWord word) {c : Char} (hc : c ∈ word) :
    (c ≠ '-' ∧ c ≠ '+') ∧ isDigit c = false := by
  obtain ⟨w, hw, he⟩ := h
  have hl : c.toLower ∈ foldCase w := he ▸ List.mem_map_of_mem hc
  have hall : ∀ w ∈ ["inf".toList, "infinity".toList, "nan".toList],
      (foldCase w).all fun c => (c ≠ '-' ∧ c ≠ '+') ∧ isDigit c = false := by decide
  obtain ⟨⟨hm, hp⟩, hd⟩ := of_decide_eq_true (List.all_eq_true.mp (hall w hw) _ hl)
  rw [apply_toLower isDigit (by decide)] at hd
  refine ⟨⟨?_, ?_⟩, hd⟩
  · rintro rfl
    exact hm rfl
  · rintro rfl
    exact hp rfl

theorem ofText?_word {s : Text} (hs : SpellsSign s negative) (hw : IsWord word) :
    ofText? (s ++ word) = ofWord? negative word := by
  have hsplit : splitSign (s ++ word) = (negative, word) :=
    splitSign_append hs fun c hc => (hw.not_mem (List.mem_of_mem_head? hc)).1
  have hnone : Decimal.ofText? (s ++ word) = none := by
    rw [Option.eq_none_iff_forall_ne_some]
    intro d hd
    obtain ⟨c, hc, hdigit⟩ := (exists_ofText?_iff.mp ⟨d, hd, rfl, rfl⟩).exists_digit
    rcases List.mem_append.mp hc with hc | hc
    · cases hs <;> simp at hc <;> subst hc <;> cases hdigit
    · rw [(hw.not_mem hc).2] at hdigit
      cases hdigit
  rw [ofText?, hsplit, hnone]
  rfl

/-- Besides decimal numbers only the words are read, each with or without a sign. -/
theorem exists_ofText?_iff : (∃ v, ofText? t = some v) ↔ (∃ negative q, Spells t negative q) ∨
    ∃ s word negative, SpellsSign s negative ∧ IsWord word ∧ t = s ++ word := by
  constructor
  · rintro ⟨v, hv⟩
    rcases Option.or_eq_some_iff.mp hv with hd | ⟨-, hw⟩
    · obtain ⟨d, hd, -⟩ := Option.map_eq_some_iff.mp hd
      exact .inl ⟨_, _, Decimal.exists_ofText?_iff.mp ⟨d, hd, rfl, rfl⟩⟩
    · obtain ⟨s, hs, ht⟩ := spellsSign_of_splitSign (t := t) rfl
      exact .inr ⟨s, _, _, hs, exists_ofWord?_iff.mp ⟨v, hw⟩, ht⟩
  · rintro (⟨negative, q, h⟩ | ⟨s, word, negative, hs, hw, rfl⟩)
    · obtain ⟨d, hd, -⟩ := Decimal.exists_ofText?_iff.mpr h
      exact ⟨ofDecimal d, by rw [ofText?, hd]; rfl⟩
    · rw [ofText?_word hs hw]
      exact exists_ofWord?_iff.mpr hw

end Double

namespace Argument

variable {arg : Argument} {x : Binary64}

/-- The steps of reading a number: what stands between the blanks is read as a double, which must
be finite and in the range. The range is given by its test, so its ends may be infinite as well. -/
def numeric? (contains : Double → Bool) (arg : Argument) : Option Double :=
  ((Double.ofText? (trim arg.text)).filter Double.isFinite).filter contains

/-- The steps behind a search for a digit in the whole text. -/
def searched? (contains : Double → Bool) (arg : Argument) : Option Double :=
  if arg.text.any isDigit then arg.numeric? contains else none

theorem numeric?_eq_some_iff {contains : Double → Bool} {v : Double} :
    arg.numeric? contains = some v ↔ ∃ x negative q, v = .finite x ∧
      Spells (trim arg.text) negative q ∧ x.IsRounded negative q ∧ contains v = true := by
  simp only [numeric?, Option.filter_eq_some_iff]
  constructor
  · rintro ⟨⟨ht, hf⟩, hc⟩
    cases v with
    | finite x =>
      obtain ⟨negative, q, hs, hx⟩ := Double.ofText?_eq_finite_iff.mp ht
      exact ⟨x, negative, q, rfl, hs, hx, hc⟩
    | infinite negative => cases hf
    | nan => cases hf
  · rintro ⟨x, negative, q, rfl, hs, hx, hc⟩
    exact ⟨⟨Double.ofText?_eq_finite_iff.mpr ⟨negative, q, hs, hx⟩, rfl⟩, hc⟩

theorem searched?_eq_numeric? (contains : Double → Bool) :
    arg.searched? contains = arg.numeric? contains := by
  unfold searched?
  split
  · rfl
  · next hd =>
    symm
    rw [Option.eq_none_iff_forall_ne_some]
    intro v hv
    obtain ⟨x, negative, q, rfl, hs, -⟩ := numeric?_eq_some_iff.mp hv
    obtain ⟨c, hc, hdigit⟩ := hs.exists_digit
    exact hd (List.any_eq_true.mpr ⟨c, mem_of_mem_trim hc, hdigit⟩)

theorem number?_eq_some_iff {range : Binary64.Range} : number? range arg = some x ↔
    ∃ negative q, Spells (trim arg.text) negative q ∧ x.IsRounded negative q ∧
      range.contains x = true := by
  simp only [number?, Option.filter_eq_some_iff, Option.bind_eq_some_iff, exists_round?_iff]
  constructor
  · rintro ⟨⟨negative, q, hs, hx⟩, hc⟩
    exact ⟨negative, q, hs, hx, hc⟩
  · rintro ⟨negative, q, hs, hx, hc⟩
    exact ⟨⟨negative, q, hs, hx⟩, hc⟩

theorem numeric?_eq_map_number? {contains : Double → Bool} {range : Binary64.Range}
    (h : ∀ x, contains (.finite x) = range.contains x) :
    arg.numeric? contains = (number? range arg).map .finite := by
  ext v
  simp only [numeric?_eq_some_iff, Option.map_eq_some_iff, number?_eq_some_iff]
  constructor
  · rintro ⟨x, negative, q, rfl, hs, hx, hc⟩
    exact ⟨x, ⟨negative, q, hs, hx, h x ▸ hc⟩, rfl⟩
  · rintro ⟨x, ⟨negative, q, hs, hx, hc⟩, rfl⟩
    exact ⟨x, negative, q, rfl, hs, hx, (h x).trans hc⟩

theorem numeric?_word {s word : Text} {negative : Bool} (hs : SpellsSign s negative)
    (hw : Double.IsWord word) (ht : trim arg.text = s ++ word) (contains : Double → Bool) :
    arg.numeric? contains = none := by
  rw [Option.eq_none_iff_forall_ne_some]
  intro v hv
  obtain ⟨⟨h, hf⟩, -⟩ := by simpa only [numeric?, Option.filter_eq_some_iff] using hv
  rw [ht, Double.ofText?_word hs hw] at h
  cases v with
  | finite x => exact Double.ofWord?_ne_finite h
  | infinite negative => cases hf
  | nan => cases hf

/-- Texts are read as doubles if they spell decimal numbers, or words for infinity and for what is
not a number. An argument is a number in a range exactly if it spells a decimal number between
blanks, and the number is rounded to a finite double in the range, which then is the answer. It is
an integer on the same terms. A search for a digit in front of these steps changes no answer, and
words are refused with it and without it. -/
theorem number?_iff_spells_finite (arg : Argument) :
    (∀ t, (∃ v, Double.ofText? t = some v) ↔ (∃ negative q, Spells t negative q) ∨
      ∃ s word negative, SpellsSign s negative ∧ Double.IsWord word ∧ t = s ++ word) ∧
    (∀ range, integer? range arg = number? range arg) ∧
    (∀ range x, number? range arg = some x ↔ ∃ negative q, Spells (trim arg.text) negative q ∧
      x.IsRounded negative q ∧ range.contains x = true) ∧
    (∀ contains v, arg.searched? contains = some v ↔ ∃ x negative q, v = .finite x ∧
      Spells (trim arg.text) negative q ∧ x.IsRounded negative q ∧ contains v = true) ∧
    (∀ contains, arg.searched? contains = arg.numeric? contains) ∧
    (∀ contains range, (∀ x, contains (.finite x) = range.contains x) →
      arg.searched? contains = (number? range arg).map .finite) ∧
    ∀ s word negative, SpellsSign s negative → Double.IsWord word → trim arg.text = s ++ word →
      (∃ v, Double.ofText? (trim arg.text) = some v ∧ v.isFinite = false) ∧
        ∀ contains, arg.searched? contains = none ∧ arg.numeric? contains = none := by
  refine ⟨fun t => Double.exists_ofText?_iff, fun range => rfl, fun range x => number?_eq_some_iff,
    fun contains v => ?_, searched?_eq_numeric?, fun contains range h => ?_,
    fun s word negative hs hw ht => ⟨?_, fun contains => ?_⟩⟩
  · rw [searched?_eq_numeric?]
    exact numeric?_eq_some_iff
  · rw [searched?_eq_numeric?]
    exact numeric?_eq_map_number? h
  · obtain ⟨v, hv⟩ := Double.exists_ofWord?_iff.mpr hw
    rw [ht, Double.ofText?_word hs hw]
    refine ⟨v, hv, ?_⟩
    cases v with
    | finite x => exact absurd hv Double.ofWord?_ne_finite
    | infinite negative => rfl
    | nan => rfl
  · rw [searched?_eq_numeric?]
    exact ⟨numeric?_word hs hw ht contains, numeric?_word hs hw ht contains⟩

theorem number?_iff_spells_finite_blanks :
    number? ⟨none, some ⟨⟨true, 0⟩, true⟩⟩ ⟨[], [], " -.5E+1\u3000".toList⟩ =
        some ⟨true, 5 * Binary64.one⟩ ∧
      (∃ negative q, Spells "-.5E+1".toList negative q ∧
        Binary64.IsRounded ⟨true, 5 * Binary64.one⟩ negative q) ∧
      searched? Double.isFinite ⟨[], [], " -.5E+1\u3000".toList⟩ =
        some (.finite ⟨true, 5 * Binary64.one⟩) ∧
      Double.ofText? "-iNF".toList = some (.infinite true) ∧
      searched? (fun _ => true) ⟨[], [], "\t-iNF".toList⟩ = none := by
  obtain ⟨-, -, hnumber, -, -, hrange, -⟩ :=
    number?_iff_spells_finite ⟨[], [], " -.5E+1\u3000".toList⟩
  obtain ⟨-, -, -, -, -, -, hword⟩ := number?_iff_spells_finite ⟨[], [], "\t-iNF".toList⟩
  have h : number? ⟨none, some ⟨⟨true, 0⟩, true⟩⟩ ⟨[], [], " -.5E+1\u3000".toList⟩ =
      some ⟨true, 5 * Binary64.one⟩ := by decide +kernel
  have hfull : number? .full ⟨[], [], " -.5E+1\u3000".toList⟩ =
      some ⟨true, 5 * Binary64.one⟩ := by decide +kernel
  obtain ⟨negative, q, hs, hx, -⟩ := (hnumber _ _).mp h
  have hw : Double.IsWord "iNF".toList := ⟨"inf".toList, by decide, by decide⟩
  refine ⟨h, ⟨negative, q, hs, hx⟩, ?_, by decide, ?_⟩
  · rw [hrange Double.isFinite .full fun x => rfl, hfull]
    rfl
  · exact ((hword ['-'] _ true .minus hw (by decide)).2 _).1

end Argument

end ChatCommand
