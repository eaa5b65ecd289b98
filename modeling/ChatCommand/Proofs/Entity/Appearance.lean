import ChatCommand.Argument.Basic
import ChatCommand.Proofs.Entity.Mention

/-! # Ids anywhere in a text

A text that has a run of 17 digits or more has an id in it, even if the run is too long to be an id
itself. So an id can be found in every text around an id or a mention.
-/

namespace ChatCommand

namespace Id

open Decimal

/-- What stands between characters that are no digits. The runs may be empty. -/
def digitRuns (t : Text) : List Text := t.splitOnP (!isDigit ·)

theorem digitRuns_cons_of_digit {c : Char} (hc : isDigit c = true) {t run : Text}
    {runs : List Text} (h : digitRuns t = run :: runs) :
    digitRuns (c :: t) = (c :: run) :: runs := by
  unfold digitRuns at h ⊢
  rw [List.splitOnP_cons_eq_if_modifyHead, h, if_neg (by simp [hc]), List.modifyHead_cons]

theorem digitRuns_cons_of_not_digit {c : Char} (hc : isDigit c = false) (t : Text) :
    digitRuns (c :: t) = [] :: digitRuns t := by
  unfold digitRuns
  rw [List.splitOnP_cons_eq_if_modifyHead, if_pos (by simp [hc])]

theorem exists_digitRuns (t : Text) : ∃ runs, digitRuns t = t.takeWhile isDigit :: runs := by
  induction t with
  | nil => exact ⟨[], List.splitOnP_nil⟩
  | cons c t ih =>
    obtain ⟨runs, ih⟩ := ih
    cases hc : isDigit c with
    | true =>
      rw [digitRuns_cons_of_digit hc ih, List.takeWhile_cons_of_pos hc]
      exact ⟨runs, rfl⟩
    | false =>
      rw [digitRuns_cons_of_not_digit hc, List.takeWhile_cons_of_neg (by simp [hc])]
      exact ⟨_, rfl⟩

theorem appearsIn_cons (c : Char) (t : Text) :
    appearsIn (c :: t) = (17 ≤ ((c :: t).takeWhile isDigit).length || appearsIn t : Bool) := by
  rw [appearsIn]

theorem appearsIn_iff_exists_run {t : Text} :
    appearsIn t = true ↔ ∃ run ∈ digitRuns t, 17 ≤ run.length := by
  induction t with
  | nil => simp [appearsIn, digitRuns]
  | cons c t ih =>
    obtain ⟨runs, hr⟩ := exists_digitRuns t
    rw [appearsIn_cons, Bool.or_eq_true, decide_eq_true_eq, ih, hr]
    cases hc : isDigit c with
    | true =>
      -- the first run of what follows is a part of the longer one that starts here
      have hlen : 17 ≤ (t.takeWhile isDigit).length → 17 ≤ (c :: t.takeWhile isDigit).length :=
        Nat.le_succ_of_le
      rw [digitRuns_cons_of_digit hc hr, List.takeWhile_cons_of_pos hc]
      simp only [List.mem_cons, exists_eq_or_imp]
      rw [← or_assoc, or_iff_left_of_imp hlen]
    | false =>
      rw [digitRuns_cons_of_not_digit hc, List.takeWhile_cons_of_neg (by simp [hc]), hr]
      simp only [List.mem_cons, exists_eq_or_imp]

theorem exists_prefix_isNumeral_iff {t : Text} :
    (∃ u, u <+: t ∧ IsNumeral u) ↔ 17 ≤ (t.takeWhile isDigit).length := by
  constructor
  · rintro ⟨u, ⟨rest, rfl⟩, hu⟩
    rw [List.takeWhile_append_of_pos hu.digits, List.length_append]
    exact Nat.le_add_right_of_le hu.minLength
  · intro h
    have hl : ((t.takeWhile isDigit).take 17).length = 17 := List.length_take_of_le h
    refine ⟨(t.takeWhile isDigit).take 17, ?_, by omega, by omega, fun c hc => ?_⟩
    · exact (List.take_prefix _ _).trans (List.takeWhile_prefix _)
    · exact List.all_eq_true.mp List.all_takeWhile c (List.mem_of_mem_take hc)

theorem appearsIn_iff_exists_isNumeral {t : Text} :
    appearsIn t = true ↔ ∃ u, u <:+: t ∧ IsNumeral u := by
  induction t with
  | nil =>
    refine iff_of_false (by simp [appearsIn]) ?_
    rintro ⟨u, hu, hn⟩
    exact hn.ne_nil (List.eq_nil_of_infix_nil hu)
  | cons c t ih =>
    rw [appearsIn_cons, Bool.or_eq_true, decide_eq_true_eq, ih, ← exists_prefix_isNumeral_iff,
      ← exists_or]
    simp only [List.infix_cons_iff, or_and_right]

theorem numeral_infix_write (form : Mention.Form) (numeral : Text) :
    numeral <:+: form.write numeral := by
  by_cases h : form = .bare
  · subst h
    exact List.infix_refl _
  · rw [Mention.Form.write_of_ne_bare h]
    exact ⟨'<' :: form.mark, ['>'], rfl⟩

/-- An id appears in a text exactly if some part of the text is an id, for which it is enough that
the text has a long run of digits. So it appears wherever a mention stands. -/
theorem appearsIn_iff_ofText?_part (t : Text) :
    (appearsIn t = true ↔ ∃ run ∈ digitRuns t, 17 ≤ run.length) ∧
    (appearsIn t = true ↔ ∃ u, u <:+: t ∧ ∃ id, ofText? u = some id) ∧
    ∀ (kind : Mention) (id : Id), kind.extract? t = some id → ∀ before behind usage name : Text,
      Argument.id? ⟨usage, name, before ++ t ++ behind⟩ = some (before ++ t ++ behind) := by
  refine ⟨appearsIn_iff_exists_run, ?_, fun kind id h before behind usage name => ?_⟩
  · simp only [appearsIn_iff_exists_isNumeral, ofText?_eq_some_iff, exists_and_left, exists_eq,
      and_true]
  · obtain ⟨form, numeral, -, hn, rfl, -⟩ := Mention.extract?_eq_some_iff.mp h
    have hi : numeral <:+: before ++ form.write numeral ++ behind :=
      (numeral_infix_write form numeral).trans ⟨before, behind, rfl⟩
    exact if_pos (appearsIn_iff_exists_isNumeral.mpr ⟨numeral, hi, hn⟩)

theorem appearsIn_iff_ofText?_part_emoji :
    let mention : Text := "<a:n:10000000000000000>".toList
    ofText? "12345678901234567890".toList = none ∧
      (∃ u, u <:+: "12345678901234567890".toList ∧ ∃ id, ofText? u = some id) ∧
      Mention.emoji.extract? mention = some ⟨10000000000000000⟩ ∧
      Argument.id? ⟨[], [], ['é'] ++ mention ++ ['1']⟩ = some (['é'] ++ mention ++ ['1']) := by
  intro mention
  have hm : Mention.emoji.extract? mention = some ⟨10000000000000000⟩ := by decide +kernel
  obtain ⟨-, -, hfound⟩ := appearsIn_iff_ofText?_part mention
  obtain ⟨-, hdigits, -⟩ := appearsIn_iff_ofText?_part "12345678901234567890".toList
  exact ⟨by decide, hdigits.mp (by decide), hm, hfound .emoji _ hm ['é'] ['1'] [] []⟩

end Id

end ChatCommand
