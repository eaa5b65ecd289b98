import ChatCommand.Proofs.Line.Words
import ChatCommand.Text.Quoted

/-! # Quoted strings and bare words

The two kinds of words in a line, each described without its scanner, and what scanning returns
for a line that starts with one of them.
-/

namespace ChatCommand.Line

open Text

/-- Plain characters and escapes up to the quote that closes them. -/
inductive Closes : Text → Prop where
  | close : Closes ['"']
  | plain {c : Char} {t : Text} : c ≠ '"' → c ≠ '\\' → Closes t → Closes (c :: t)
  | escape {c : Char} {t : Text} : c = '"' ∨ c = '\\' → Closes t → Closes ('\\' :: c :: t)

def IsQuoted (t : Text) : Prop := ∃ body, t = '"' :: body ∧ Closes body

structure IsBareWord (t : Text) : Prop where
  ne_nil : t ≠ []
  bare : ∀ c ∈ t, isBare c = true

theorem closing?_quote (t : Text) : closing? ('"' :: t) = some (['"'], t) := by
  cases t <;> simp [closing?]

theorem closing?_plain {c : Char} (hq : c ≠ '"') (hb : c ≠ '\\') (t : Text) :
    closing? (c :: t) = (closing? t).map fun r => (c :: r.1, r.2) := by
  cases t <;> simp [closing?, hq, hb]

theorem closing?_escape {c : Char} (hc : c = '"' ∨ c = '\\') (t : Text) :
    closing? ('\\' :: c :: t) = (closing? t).map fun r => ('\\' :: c :: r.1, r.2) := by
  simp [closing?, hc]

theorem Closes.closing?_append {body : Text} (h : Closes body) (rest : Text) :
    closing? (body ++ rest) = some (body, rest) := by
  induction h with
  | close => exact closing?_quote rest
  | plain hq hb _ ih => rw [List.cons_append, closing?_plain hq hb, ih, Option.map_some]
  | escape hc _ ih =>
    rw [List.cons_append, List.cons_append, closing?_escape hc, ih, Option.map_some]

theorem closes_of_closing? {t body rest : Text} (h : closing? t = some (body, rest)) :
    Closes body := by
  fun_induction closing? t generalizing body rest with
  | case1 => simp at h
  | case2 =>
    obtain ⟨rfl, -⟩ := Prod.mk.inj (Option.some.inj h)
    exact .close
  | case3 => simp at h
  | case4 =>
    obtain ⟨rfl, -⟩ := Prod.mk.inj (Option.some.inj h)
    exact .close
  | case5 d r hd _ ih =>
    obtain ⟨b, hb, he⟩ := Option.map_eq_some_iff.mp h
    obtain ⟨rfl, -⟩ := Prod.mk.inj he
    exact .escape hd (ih hb)
  | case6 => simp at h
  | case7 c d r hq hb ih =>
    obtain ⟨b, hb', he⟩ := Option.map_eq_some_iff.mp h
    obtain ⟨rfl, -⟩ := Prod.mk.inj he
    exact .plain hq hb (ih hb')

theorem closing?_eq_some_iff {t body rest : Text} :
    closing? t = some (body, rest) ↔ t = body ++ rest ∧ Closes body := by
  constructor
  · exact fun h => ⟨(append_of_closing? h).symm, closes_of_closing? h⟩
  · rintro ⟨rfl, h⟩
    exact h.closing?_append rest

theorem closing?_eq_none_iff {rest : Text} :
    closing? rest = none ↔ ∀ t, IsQuoted t → ¬ t <+: '"' :: rest := by
  constructor
  · rintro h _ ⟨body, rfl, hb⟩ hp
    obtain ⟨r, rfl⟩ := (List.cons_prefix_cons.mp hp).2
    rw [hb.closing?_append] at h
    cases h
  · intro h
    cases hc : closing? rest with
    | none => rfl
    | some r =>
      obtain ⟨rfl, hb⟩ := closing?_eq_some_iff.mp hc
      exact absurd (List.prefix_append _ _) (h _ ⟨r.1, rfl, hb⟩)

theorem isBare_quote : isBare '"' = false := by decide

theorem isBare_of_isBlank {c : Char} (h : isBlank c = true) : isBare c = false := by
  simp [isBare, h]

theorem IsQuoted.ne_nil {t : Text} (h : IsQuoted t) : t ≠ [] := by
  obtain ⟨body, rfl, -⟩ := h
  exact List.cons_ne_nil _ _

theorem IsBareWord.head?_ne {t : Text} (h : IsBareWord t) : t.head? ≠ some '"' := by
  intro hq
  have := h.bare '"' (List.mem_of_mem_head? hq)
  rw [isBare_quote] at this
  cases this

theorem IsBareWord.not_isQuoted {t : Text} (h : IsBareWord t) : ¬ IsQuoted t := by
  rintro ⟨body, rfl, -⟩
  exact h.head?_ne rfl

theorem scan_bare_append {w t : Text} (hw : IsBareWord w)
    (ht : ∀ c ∈ t.head?, isBare c = false) : scan (w ++ t) = .bare w :: scan t := by
  have hb : t.takeWhile isBare = [] ∧ t.dropWhile isBare = t := by
    cases t with
    | nil => exact ⟨rfl, rfl⟩
    | cons c r => simp [ht c rfl]
  obtain ⟨c, r, rfl⟩ := List.exists_cons_of_ne_nil hw.ne_nil
  obtain ⟨hc, hr⟩ := List.forall_mem_cons.mp hw.bare
  rw [List.cons_append, scan, if_pos hc, List.takeWhile_append_of_pos hr,
    List.dropWhile_append_of_pos hr, hb.1, hb.2, List.append_nil]

theorem scan_quoted_append {w : Text} (hw : IsQuoted w) (t : Text) :
    scan (w ++ t) = .quoted w :: scan t := by
  obtain ⟨body, rfl, hb⟩ := hw
  rw [List.cons_append, scan_quote, hb.closing?_append]

/-- A word behind which no bare character stands is read as one piece. -/
theorem scan_word_append {w t : Text} (hw : IsBareWord w ∨ IsQuoted w)
    (ht : ∀ c ∈ t.head?, isBare c = false) :
    ∃ p : Piece, p.item? = some w ∧ scan (w ++ t) = p :: scan t := by
  rcases hw with hw | hw
  · exact ⟨.bare w, rfl, scan_bare_append hw ht⟩
  · exact ⟨.quoted w, rfl, scan_quoted_append hw t⟩

theorem scan_blank_cons {c : Char} (hc : isBlank c = true) (t : Text) :
    scan (c :: t) = .gap c :: scan t := by
  have hq : c ≠ '"' := by
    rintro rfl
    exact absurd hc (by decide)
  rw [scan, if_neg (by simp [isBare_of_isBlank hc]), if_neg hq]

end ChatCommand.Line
