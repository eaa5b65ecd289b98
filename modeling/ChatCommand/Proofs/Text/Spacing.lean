import ChatCommand.Text.Basic

/-! # Blanks around words

Trimming leaves a tight text, one without a blank at either end, unless it leaves nothing. Words
are joined into a text with blanks behind each of them and at least one between two.
-/

namespace ChatCommand

namespace Text

structure Tight (t : Text) : Prop where
  head : ∃ c r, t = c :: r ∧ isBlank c = false
  last : ∃ l d, t = l ++ [d] ∧ isBlank d = false

theorem Tight.ne_nil {t : Text} (h : t.Tight) : t ≠ [] := by
  obtain ⟨c, r, rfl, -⟩ := h.head
  exact List.cons_ne_nil c r

theorem tight_of_forall {t : Text} (hn : t ≠ []) (h : ∀ c ∈ t, isBlank c = false) : t.Tight := by
  constructor
  · obtain ⟨c, r, rfl⟩ := List.exists_cons_of_ne_nil hn
    exact ⟨c, r, rfl, h c (by simp)⟩
  · exact ⟨t.dropLast, t.getLast hn, (List.dropLast_concat_getLast hn).symm,
      h _ (List.getLast_mem hn)⟩

theorem trimStart_append_cons (s : Text) {c : Char} (t : Text) (h : isBlank c = false) :
    trimStart (s ++ c :: t) = trimStart s ++ c :: t := by
  have hc : (c :: t).dropWhile isBlank = c :: t := List.dropWhile_cons_of_neg (by simp [h])
  by_cases hs : s.dropWhile isBlank = []
  · simp [trimStart, List.dropWhile_append, hs, hc]
  · simp [trimStart, List.dropWhile_append, hs]

@[simp] theorem trimStart_trimStart_append (s t : Text) :
    trimStart (trimStart s ++ t) = trimStart (s ++ t) := by
  induction s with
  | nil => rfl
  | cons c s ih =>
    cases h : isBlank c with
    | true => simpa [trimStart, h] using ih
    | false => simp [trimStart, h]

@[simp] theorem trimStart_trimStart (t : Text) : trimStart (trimStart t) = trimStart t := by
  simpa using trimStart_trimStart_append t []

theorem countP_trimStart (t : Text) :
    (trimStart t).countP (!isBlank ·) = t.countP (!isBlank ·) := by
  induction t with
  | nil => rfl
  | cons c t ih => cases h : isBlank c <;> simp_all [trimStart]

theorem Tight.trimStart_append {w : Text} (h : w.Tight) (s t : Text) :
    trimStart (s ++ w ++ t) = trimStart s ++ w ++ t := by
  obtain ⟨c, r, rfl, hc⟩ := h.head
  simpa using trimStart_append_cons s (r ++ t) hc

theorem Tight.trimStart_eq {t : Text} (h : t.Tight) : trimStart t = t := by
  simpa using h.trimStart_append [] []

theorem Tight.trim_eq {t : Text} (h : t.Tight) : trim t = t := by
  obtain ⟨l, d, rfl, hd⟩ := h.last
  rw [trim, h.trimStart_eq, trimEnd, List.reverse_concat,
    List.dropWhile_cons_of_neg (by simp [hd]), List.reverse_cons, List.reverse_reverse]

theorem Tight.append_of_head? {lead t : Text} (h : t.Tight)
    (hl : ∀ c ∈ lead.head?, isBlank c = false) : (lead ++ t).Tight := by
  obtain ⟨⟨c, r, hc, hb⟩, l, d, hd, hlast⟩ := h
  constructor
  · cases lead with
    | nil => exact ⟨c, r, hc, hb⟩
    | cons e lead => exact ⟨e, lead ++ t, rfl, hl e rfl⟩
  · exact ⟨lead ++ l, d, by rw [hd, List.append_assoc], hlast⟩

theorem tight_trim {t : Text} (h : trim t ≠ []) : (trim t).Tight := by
  constructor
  · obtain ⟨c, r, hc⟩ := List.exists_cons_of_ne_nil h
    obtain ⟨s, hs⟩ := trimEnd_isPrefixOf (trimStart t)
    have hne : trimStart t ≠ [] := fun hn => h (by rw [trim, hn]; rfl)
    have hh := List.head_dropWhile_not isBlank hne
    refine ⟨c, r, hc, ?_⟩
    have he : t.dropWhile isBlank = c :: (r ++ s) := by
      rw [← List.cons_append, ← hc]
      exact hs.symm
    simpa [he] using hh
  · have hne : (trimStart t).reverse.dropWhile isBlank ≠ [] := by
      intro hn
      exact h (by rw [trim, trimEnd, hn]; rfl)
    obtain ⟨d, r, hd⟩ := List.exists_cons_of_ne_nil hne
    have hh := List.head_dropWhile_not isBlank hne
    refine ⟨r.reverse, d, ?_, by simpa [hd] using hh⟩
    rw [trim, trimEnd, hd, List.reverse_cons]

theorem mem_of_mem_trim {t : Text} {c : Char} (h : c ∈ trim t) : c ∈ t :=
  (trimStart_suffix t).mem ((trimEnd_isPrefixOf _).mem h)

def AllBlank (t : Text) : Prop := ∀ c ∈ t, isBlank c = true

theorem allBlank_nil : AllBlank [] := nofun

theorem allBlank_space : AllBlank [' '] := List.forall_mem_singleton.mpr rfl

theorem AllBlank.trimStart_append {blanks : Text} (h : blanks.AllBlank) (t : Text) :
    trimStart (blanks ++ t) = trimStart t :=
  List.dropWhile_append_of_pos h

/-- The text consists of these words in order, each with blanks behind it that may be missing only
behind the last. -/
inductive Joined : List Text → Text → Prop where
  | nil : Joined [] []
  | cons {w blanks t : Text} {ws : List Text} : blanks.AllBlank → (ws ≠ [] → blanks ≠ []) →
      Joined ws t → Joined (w :: ws) (w ++ (blanks ++ t))

theorem intercalate_cons (c : Char) (w : Text) (ws : List Text) :
    [c].intercalate (w :: ws) = w ++ ws.flatMap (c :: ·) := by
  induction ws generalizing w with
  | nil => simp [List.intercalate]
  | cons v ws ih => rw [List.intercalate_cons_cons, ih, List.flatMap_cons]; simp

theorem joined_intercalate (ws : List Text) : Joined ws ([' '].intercalate ws) := by
  induction ws with
  | nil => exact .nil
  | cons w ws ih =>
    cases ws with
    | nil =>
      have h : Joined [w] (w ++ ([] ++ [])) := .cons allBlank_nil (absurd rfl) .nil
      simpa using h
    | cons v ws =>
      rw [List.intercalate_cons_cons, List.append_assoc]
      exact .cons allBlank_space (fun _ => List.cons_ne_nil _ _) ih

theorem Joined.isBlank_of_mem_head? {blanks t : Text} {ws : List Text} (hb : blanks.AllBlank)
    (hn : ws ≠ [] → blanks ≠ []) (h : Joined ws t) :
    ∀ c ∈ (blanks ++ t).head?, isBlank c = true := by
  intro c hc
  cases blanks with
  | nil =>
    cases h with
    | nil => cases hc
    | cons => exact absurd rfl (hn (List.cons_ne_nil _ _))
  | cons b blanks =>
    obtain rfl := Option.some.inj hc
    exact hb _ List.mem_cons_self

end Text

end ChatCommand
