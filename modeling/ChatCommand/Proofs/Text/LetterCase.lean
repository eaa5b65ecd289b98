import ChatCommand.Text.Lowercase

/-! # Texts up to the case of letters

Two texts may differ in the case of the letters A to Z only. Such letters have one byte each, stand
in the same case contexts, and have the same lowercase, so what is read off a text by these means
does not depend on their case. Below the Latin letters with diacritics only these capitals have
another lowercase form.
-/

namespace ChatCommand.Text

def capitals : Text := "ABCDEFGHIJKLMNOPQRSTUVWXYZ".toList

/-- The text with small letters for the capitals A to Z. -/
def foldCase (t : Text) : Text := t.map Char.toLower

def SameLetters (s t : Text) : Prop := foldCase s = foldCase t

instance (s t : Text) : Decidable (SameLetters s t) :=
  inferInstanceAs (Decidable (foldCase s = foldCase t))

theorem toLower_eq_self_or_mem (c : Char) : c.toLower = c ∨ c ∈ capitals := by
  by_cases h : 65 ≤ c.toNat ∧ c.toNat ≤ 90
  · right
    have hall : ∀ n ∈ List.range' 65 26, Char.ofNat n ∈ capitals := by decide
    have hn : c.toNat ∈ List.range' 65 26 := by
      rw [List.mem_range'_1]
      omega
    simpa using hall _ hn
  · left
    unfold Char.toLower
    rw [dif_neg]
    exact h

/-- What is the same for a capital and its small letter cannot tell cases apart. -/
theorem apply_toLower {β : Type} (f : Char → β)
    (h : (capitals.map fun c => f c.toLower) = capitals.map f) (c : Char) :
    f c.toLower = f c := by
  rcases toLower_eq_self_or_mem c with he | hm
  · rw [he]
  · exact List.map_inj_left.mp h c hm

@[simp] theorem isBlank_toLower (c : Char) : isBlank c.toLower = isBlank c :=
  apply_toLower isBlank (by decide) c

@[simp] theorem utf8Size_toLower (c : Char) : c.toLower.utf8Size = c.utf8Size :=
  apply_toLower Char.utf8Size (by decide) c

theorem toLower_eq_iff {c d : Char} (hd : d ∉ capitals.map Char.toLower) (hc : d ∉ capitals) :
    c.toLower = d ↔ c = d := by
  rcases toLower_eq_self_or_mem c with he | hm
  · rw [he]
  · constructor
    · rintro rfl
      exact absurd (List.mem_map_of_mem hm) hd
    · rintro rfl
      exact absurd hm hc

@[simp] theorem foldCase_nil : foldCase [] = [] := rfl

@[simp] theorem foldCase_cons (c : Char) (t : Text) :
    foldCase (c :: t) = c.toLower :: foldCase t := rfl

@[simp] theorem foldCase_append (s t : Text) : foldCase (s ++ t) = foldCase s ++ foldCase t :=
  List.map_append

@[simp] theorem foldCase_eq_nil_iff {t : Text} : foldCase t = [] ↔ t = [] := List.map_eq_nil_iff

@[simp] theorem utf8Size_foldCase (t : Text) : utf8Size (foldCase t) = utf8Size t := by
  induction t with
  | nil => rfl
  | cons c t ih => simp [ih]

theorem dropWhile_foldCase {p : Char → Bool} (hp : ∀ c, p c.toLower = p c) (t : Text) :
    (foldCase t).dropWhile p = foldCase (t.dropWhile p) := by
  have : p ∘ Char.toLower = p := funext hp
  rw [foldCase, List.dropWhile_map, this, foldCase]

theorem takeWhile_foldCase {p : Char → Bool} (hp : ∀ c, p c.toLower = p c) (t : Text) :
    (foldCase t).takeWhile p = foldCase (t.takeWhile p) := by
  have : p ∘ Char.toLower = p := funext hp
  rw [foldCase, List.takeWhile_map, this, foldCase]

theorem trimStart_foldCase (t : Text) : trimStart (foldCase t) = foldCase (trimStart t) :=
  dropWhile_foldCase isBlank_toLower t

theorem SameLetters.eq_nil_iff {s t : Text} (h : SameLetters s t) : s = [] ↔ t = [] := by
  rw [← foldCase_eq_nil_iff, h, foldCase_eq_nil_iff]

theorem isCaseIgnorable_toLower (c : Char) : isCaseIgnorable c.toLower = isCaseIgnorable c :=
  apply_toLower isCaseIgnorable (by decide +kernel) c

theorem isCased_toLower (c : Char) : isCased c.toLower = isCased c :=
  apply_toLower isCased (by decide +kernel) c

theorem lowerChar_toLower (c : Char) : lowerChar c.toLower = lowerChar c :=
  apply_toLower lowerChar (by decide +kernel) c

theorem startsCased_foldCase (t : Text) : startsCased (foldCase t) = startsCased t := by
  rw [startsCased, startsCased, dropWhile_foldCase isCaseIgnorable_toLower]
  cases t.dropWhile isCaseIgnorable with
  | nil => rfl
  | cons c rest => exact isCased_toLower c

theorem lowerAfter_foldCase (before t : Text) :
    lowerAfter (foldCase before) (foldCase t) = lowerAfter before t := by
  induction t generalizing before with
  | nil => rfl
  | cons c rest ih =>
    have hs : c.toLower = 'Σ' ↔ c = 'Σ' := toLower_eq_iff (by decide) (by decide)
    rw [foldCase_cons, lowerAfter, lowerAfter, ← foldCase_cons, ih]
    simp only [hs, startsCased_foldCase, lowerChar_toLower]

theorem lowercase_foldCase (t : Text) : lowercase (foldCase t) = lowercase t :=
  lowerAfter_foldCase [] t

theorem SameLetters.lowercase_eq {s t : Text} (h : SameLetters s t) :
    lowercase s = lowercase t := by
  rw [← lowercase_foldCase, h, lowercase_foldCase]

theorem eq_capitals_or_le_first :
    ∀ run ∈ lowercaseRuns, run = ⟨0x41, 0x5A, 1, 0x61⟩ ∨ 0xC0 ≤ run.first := by
  decide +kernel

theorem lowerChar_eq_self {c : Char} (hc : c.toNat < 0xC0)
    (hn : c.toNat < 0x41 ∨ 0x5A < c.toNat) : lowerChar c = [c] := by
  have hi : c ≠ 'İ' := by
    rintro rfl
    exact absurd hc (by decide)
  have hr : lowercaseRuns.findSome? (·.lower? c.toNat) = none := by
    refine List.findSome?_eq_none_iff.mpr fun run hrun => if_neg ?_
    rintro ⟨hf, hl, -⟩
    rcases eq_capitals_or_le_first run hrun with rfl | hle
    · dsimp only at hf hl
      omega
    · omega
  rw [lowerChar, if_neg hi, hr]

theorem lowercase_eq_self {t : Text}
    (h : ∀ c ∈ t, c.toNat < 0xC0 ∧ (c.toNat < 0x41 ∨ 0x5A < c.toNat)) : lowercase t = t := by
  suffices hb : ∀ before, lowerAfter before t = t from hb []
  induction t with
  | nil => exact fun _ => rfl
  | cons c rest ih =>
    obtain ⟨⟨hc, hn⟩, hrest⟩ := List.forall_mem_cons.mp h
    have hs : c ≠ 'Σ' := by
      rintro rfl
      exact absurd hc (by decide)
    intro before
    rw [lowerAfter, if_neg hs, lowerChar_eq_self hc hn, ih hrest]
    rfl

end ChatCommand.Text
