import Mathlib.Data.List.Chain
import Mathlib.Data.List.Infix
import ChatCommand.Proofs.Fallible
import ChatCommand.Template.Parser

/-! # Splitting templates

The parts of a template spell it again. Splitting finds the only parts that do so with no opening
left in a text, no brace in a key and no two texts next to each other.
-/

namespace ChatCommand.Template

def opening : Text := ['$', '{']

def Braceless (t : Text) : Prop := ∀ c ∈ t, c ≠ '{' ∧ c ≠ '}'

instance (t : Text) : Decidable (Braceless t) :=
  List.decidableBAll (fun c => c ≠ '{' ∧ c ≠ '}') t

namespace Part

def spell : Part → Text
  | text t => t
  | key body => opening ++ (body ++ ['}'])

def body? : Part → Option Text
  | text _ => none
  | key body => some body

def WellFormed : Part → Prop
  | text t => t ≠ [] ∧ ¬ opening <:+: t
  | key body => Braceless body

end Part

def spell (parts : List Part) : Text := parts.flatMap Part.spell

@[simp] theorem spell_nil : spell [] = [] := rfl

@[simp] theorem spell_cons (p : Part) (parts : List Part) :
    spell (p :: parts) = p.spell ++ spell parts := rfl

/-- Well-formed parts without two texts next to each other. -/
structure IsSplit (parts : List Part) : Prop where
  wellFormed : ∀ p ∈ parts, p.WellFormed
  apart : parts.IsChain fun p q => p.body? ≠ none ∨ q.body? ≠ none

theorem isSplit_cons_iff {p : Part} {parts : List Part} :
    IsSplit (p :: parts) ↔
      p.WellFormed ∧ (∀ q ∈ parts.head?, p.body? ≠ none ∨ q.body? ≠ none) ∧ IsSplit parts := by
  constructor
  · rintro ⟨hw, ha⟩
    obtain ⟨hp, hw⟩ := List.forall_mem_cons.mp hw
    obtain ⟨hq, ha⟩ := List.isChain_cons.mp ha
    exact ⟨hp, hq, hw, ha⟩
  · rintro ⟨hp, hq, hw, ha⟩
    exact ⟨List.forall_mem_cons.mpr ⟨hp, hw⟩, List.isChain_cons.mpr ⟨hq, ha⟩⟩

theorem opening_prefix_iff {c : Char} {t : Text} :
    opening <+: c :: t ↔ c = '$' ∧ t.head? = some '{' := by
  rw [opening, List.cons_prefix_cons, eq_comm]
  cases t with
  | nil => simp
  | cons d t => simp [eq_comm]

theorem closeKey_append {body : Text} (h : Braceless body) (rest : Text) :
    closeKey (body ++ '}' :: rest) = .ok (body, rest) := by
  induction body with
  | nil => rfl
  | cons c body ih =>
    obtain ⟨⟨ho, hc⟩, hb⟩ := List.forall_mem_cons.mp h
    rw [List.cons_append, closeKey, if_neg hc, if_neg ho, ih hb]

theorem braceless_of_closeKey {t body rest : Text} (h : closeKey t = .ok (body, rest)) :
    Braceless body := by
  fun_induction closeKey t generalizing body rest with
  | case1 => cases h
  | case2 =>
    obtain ⟨rfl, -⟩ := Prod.mk.inj (Except.ok.inj h)
    exact List.forall_mem_nil _
  | case3 => cases h
  | case4 c r hc ho b r' hb ih =>
    obtain ⟨rfl, -⟩ := Prod.mk.inj (Except.ok.inj h)
    exact List.forall_mem_cons.mpr ⟨⟨ho, hc⟩, ih hb⟩
  | case5 => cases h

theorem split_nil : split [] = .ok [] := by rw [split]

theorem split_key {body : Text} (h : Braceless body) (rest : Text) :
    split (opening ++ (body ++ '}' :: rest)) = (.key body :: ·) <$> split rest := by
  have hc := closeKey_append h rest
  rw [opening, List.cons_append, List.singleton_append, split]
  split
  · next h' =>
    obtain ⟨rfl, rfl⟩ := Prod.mk.inj (Except.ok.inj (hc.symm.trans h'))
    rfl
  · next h' => cases hc.symm.trans h'

theorem split_cons {c : Char} {t : Text} (h : ¬ opening <+: c :: t) :
    split (c :: t) = Part.push c <$> split t := by
  rw [split]
  rintro rest rfl rfl
  exact h (List.prefix_append opening rest)

theorem wellFormed_text_cons {c : Char} {t : Text} (hc : ¬ opening <+: c :: t)
    (ht : ¬ opening <:+: t) : (Part.text (c :: t)).WellFormed :=
  ⟨List.cons_ne_nil c t, fun h => (List.infix_cons_iff.mp h).elim hc ht⟩

theorem IsSplit.push {parts : List Part} (h : IsSplit parts) {c : Char}
    (hc : ¬ opening <+: c :: spell parts) :
    IsSplit (Part.push c parts) ∧ spell (Part.push c parts) = c :: spell parts := by
  have hone : (Part.text [c]).WellFormed :=
    wellFormed_text_cons (by simp [opening_prefix_iff]) (by simp [opening])
  cases parts with
  | nil => exact ⟨isSplit_cons_iff.mpr ⟨hone, nofun, h⟩, rfl⟩
  | cons p parts =>
    cases p with
    | text t =>
      obtain ⟨ht, ha, hs⟩ := isSplit_cons_iff.mp h
      have hp : ¬ opening <+: c :: t := fun hp => hc (hp.trans (List.prefix_append _ _))
      exact ⟨isSplit_cons_iff.mpr ⟨wellFormed_text_cons hp ht.2, ha, hs⟩, rfl⟩
    | key body =>
      refine ⟨isSplit_cons_iff.mpr ⟨hone, fun q hq => .inr ?_, h⟩, rfl⟩
      obtain rfl := Option.some.inj hq
      exact Option.some_ne_none body

theorem isSplit_of_split {input : Text} {parts : List Part} (h : split input = .ok parts) :
    IsSplit parts ∧ spell parts = input := by
  fun_induction split input generalizing parts with
  | case1 rest body rest' hc ih =>
    obtain ⟨more, hm, rfl⟩ := map_eq_ok_iff.mp h
    obtain ⟨hs, rfl⟩ := ih hm
    refine ⟨isSplit_cons_iff.mpr ⟨braceless_of_closeKey hc, ?_, hs⟩, ?_⟩
    · exact fun q _ => .inl (Option.some_ne_none body)
    · simp [Part.spell, opening, eq_of_closeKey hc]
  | case2 => cases h
  | case3 c rest hno ih =>
    obtain ⟨more, hm, rfl⟩ := map_eq_ok_iff.mp h
    obtain ⟨hs, rfl⟩ := ih hm
    refine hs.push ?_
    rintro ⟨rest, hr⟩
    obtain ⟨rfl, ht⟩ := List.cons.inj hr
    exact hno rest rfl ht.symm
  | case4 =>
    obtain rfl := Except.ok.inj h
    exact ⟨⟨nofun, .nil⟩, rfl⟩

theorem split_text_append {t rest : Text} {parts : List Part} (hn : t ≠ [])
    (ho : ¬ opening <:+: t) (hr : split rest = .ok parts) (hh : rest.head? ≠ some '{')
    (hp : ∀ p ∈ parts.head?, p.body? ≠ none) :
    split (t ++ rest) = .ok (.text t :: parts) := by
  induction t with
  | nil => exact absurd rfl hn
  | cons c t ih =>
    obtain ⟨hc, ht⟩ := not_or.mp (mt List.infix_cons_iff.mpr ho)
    cases t with
    | nil =>
      rw [List.singleton_append, split_cons fun h => hh (opening_prefix_iff.mp h).2, hr]
      cases parts with
      | nil => rfl
      | cons p parts =>
        cases p with
        | text u => exact absurd rfl (hp _ rfl)
        | key body => rfl
    | cons d t =>
      have hc' : ¬ opening <+: c :: (d :: t ++ rest) := by
        rw [opening_prefix_iff] at hc ⊢
        exact hc
      rw [List.cons_append, split_cons hc', ih (List.cons_ne_nil d t) ht]
      rfl

theorem split_spell {parts : List Part} (h : IsSplit parts) : split (spell parts) = .ok parts := by
  induction parts with
  | nil => exact split_nil
  | cons p parts ih =>
    obtain ⟨hw, ha, hs⟩ := isSplit_cons_iff.mp h
    cases p with
    | text t =>
      refine split_text_append hw.1 hw.2 (ih hs) ?_ fun q hq => (ha q hq).resolve_left (absurd rfl)
      cases parts with
      | nil => simp
      | cons q parts =>
        cases q with
        | text u => exact absurd (ha _ rfl) (by simp [Part.body?])
        | key body => simp [Part.spell, opening]
    | key body =>
      rw [spell_cons, Part.spell, List.append_assoc, List.append_assoc, List.singleton_append,
        split_key hw, ih hs]
      rfl

theorem split_eq_ok_iff {input : Text} {parts : List Part} :
    split input = .ok parts ↔ IsSplit parts ∧ spell parts = input := by
  constructor
  · exact isSplit_of_split
  · rintro ⟨h, rfl⟩
    exact split_spell h

end ChatCommand.Template
