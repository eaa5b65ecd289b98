import ChatCommand.Proofs.Template.Splitting

/-! # The grammar of templates

Texts without an opening alternate with keys, each of which names an argument and perhaps a
coercion. Templates are read from exactly the texts of this form.
-/

namespace ChatCommand

open Text

theorem Coercion.ofText_eq_ok_iff {t : Text} {coercion : Coercion} :
    Coercion.ofText t = .ok coercion ↔ t = coercion.name := by
  rw [Coercion.ofText]
  constructor
  · intro h
    split at h
    · next hc =>
      obtain rfl := Except.ok.inj h
      exact (Coercion.name_of_ofName? hc).symm
    · cases h
  · rintro rfl
    rw [Coercion.ofName?_name]

namespace Template

/-- What stands between the braces of a key is the name of an argument, and behind the first colon,
if there is one, the name of a coercion. Both may have blanks around them. -/
inductive Denotes : Text → Text → Coercion → Prop where
  | name {body : Text} : ':' ∉ body → Denotes body (trim body) .string
  | coerced {left right : Text} {coercion : Coercion} : ':' ∉ left →
      trim right = coercion.name → Denotes (left ++ ':' :: right) (trim left) coercion

/-- The text alternates between texts in which no key starts and keys, which have these names. -/
inductive Alternates : Text → List Text → Prop where
  | last {t : Text} : ¬ opening <:+: t → Alternates t []
  | key {t body name rest : Text} {coercion : Coercion} {names : List Text} :
      ¬ opening <:+: t → Braceless body → Denotes body name coercion →
      name ≠ [] → Alternates rest names →
      Alternates (t ++ (opening ++ (body ++ '}' :: rest))) (name :: names)

theorem readKey_of_notMem {body : Text} (h : ':' ∉ body) : readKey body =
    if trim body = [] then .error .empty else .ok (.key (trim body) .string) := by
  rw [readKey, splitOnce?_eq_none h]
  rfl

theorem readKey_append {left : Text} (h : ':' ∉ left) (right : Text) :
    readKey (left ++ ':' :: right) = Coercion.ofText (trim right) >>= fun coercion =>
      if trim left = [] then .error .empty else .ok (.key (trim left) coercion) := by
  rw [readKey, splitOnce?_append h]
  dsimp only
  cases Coercion.ofText (trim right) with
  | error e => rfl
  | ok coercion => rfl

theorem readKey_eq_ok_iff {body : Text} {segment : Segment} :
    readKey body = .ok segment ↔
      ∃ name coercion, Denotes body name coercion ∧ name ≠ [] ∧ segment = .key name coercion := by
  constructor
  · intro h
    by_cases hb : ':' ∈ body
    · obtain ⟨left, right, rfl, hl⟩ := List.eq_append_cons_of_mem hb
      rw [readKey_append hl] at h
      obtain ⟨coercion, hc, h⟩ := bind_eq_ok_iff.mp h
      split at h
      · cases h
      · next hn =>
        exact ⟨_, _, .coerced hl (Coercion.ofText_eq_ok_iff.mp hc), hn, (Except.ok.inj h).symm⟩
    · rw [readKey_of_notMem hb] at h
      split at h
      · cases h
      · next hn => exact ⟨_, _, .name hb, hn, (Except.ok.inj h).symm⟩
  · rintro ⟨name, coercion, hd, hn, rfl⟩
    cases hd with
    | name hb => rw [readKey_of_notMem hb, if_neg hn]
    | coerced hl hc =>
      rw [readKey_append hl, Coercion.ofText_eq_ok_iff.mpr hc, ok_bind, if_neg hn]

theorem ofBody_eq_ok_iff {body : Text} {template : Template} :
    ofBody body = .ok template ↔ template.body = body ∧ ∃ parts, IsSplit parts ∧
      spell parts = body ∧ List.Forall₂ (·.segment = .ok ·) parts template.segments := by
  constructor
  · intro h
    obtain ⟨parts, hs, h⟩ := bind_eq_ok_iff.mp h
    obtain ⟨hp, rfl⟩ := split_eq_ok_iff.mp hs
    split at h
    · cases h
    · obtain ⟨segments, hm, h⟩ := bind_eq_ok_iff.mp h
      obtain rfl := Except.ok.inj h
      exact ⟨rfl, parts, hp, rfl, mapM_eq_ok_iff.mp hm⟩
  · rintro ⟨hb, parts, hp, rfl, hf⟩
    have hne : .key [] ∉ parts := by
      intro hm
      obtain ⟨segment, hs⟩ := exists_forall₂_iff.mp ⟨_, hf⟩ _ hm
      cases hs
    rw [ofBody, split_eq_ok_iff.mpr ⟨hp, rfl⟩, ok_bind, if_neg hne, mapM_eq_ok_iff.mpr hf, ok_bind,
      ← hb]
    rfl

theorem exists_isSplit_text {t : Text} {parts : List Part} {segments : List Segment}
    (ht : ¬ opening <:+: t) (hs : IsSplit parts) (hp : ∀ p ∈ parts.head?, p.body? ≠ none)
    (hf : List.Forall₂ (·.segment = .ok ·) parts segments) :
    ∃ parts' segments', IsSplit parts' ∧ spell parts' = t ++ spell parts ∧
      List.Forall₂ (·.segment = .ok ·) parts' segments' ∧
      segments'.filterMap Segment.key? = segments.filterMap Segment.key? := by
  by_cases hn : t = []
  · subst hn
    exact ⟨parts, segments, hs, rfl, hf, rfl⟩
  · refine ⟨.text t :: parts, .text t :: segments, isSplit_cons_iff.mpr ⟨⟨hn, ht⟩, ?_, hs⟩, rfl,
      .cons rfl hf, rfl⟩
    exact fun q hq => .inr (hp q hq)

theorem Alternates.exists_isSplit {text : Text} {names : List Text} (h : Alternates text names) :
    ∃ parts segments, IsSplit parts ∧ spell parts = text ∧
      List.Forall₂ (·.segment = .ok ·) parts segments ∧
      segments.filterMap Segment.key? = names := by
  induction h with
  | @last t ht =>
    have hnil : IsSplit [] := ⟨nofun, .nil⟩
    obtain ⟨parts, segments, hs, hspell, hf, hk⟩ := exists_isSplit_text ht hnil nofun .nil
    exact ⟨parts, segments, hs, by simpa using hspell, hf, hk⟩
  | @key t body name rest coercion names ht hb hd hn _ ih =>
    obtain ⟨parts, segments, hs, rfl, hf, rfl⟩ := ih
    have hkey : (Part.key body).segment = .ok (.key name coercion) :=
      readKey_eq_ok_iff.mpr ⟨name, coercion, hd, hn, rfl⟩
    have hs' : IsSplit (.key body :: parts) :=
      isSplit_cons_iff.mpr ⟨hb, fun q _ => .inl (Option.some_ne_none body), hs⟩
    have hh : ∀ p ∈ (Part.key body :: parts).head?, p.body? ≠ none := by
      rintro p ⟨⟩
      exact Option.some_ne_none body
    obtain ⟨parts', segments', hs'', hspell, hf', hk⟩ :=
      exists_isSplit_text ht hs' hh (.cons hkey hf)
    refine ⟨parts', segments', hs'', ?_, hf', hk⟩
    rw [hspell]
    simp [Part.spell]

theorem alternates_append {parts : List Part} {segments : List Segment} {t : Text}
    (hs : IsSplit parts) (hf : List.Forall₂ (·.segment = .ok ·) parts segments)
    (ht : ¬ opening <:+: t) (ha : t = [] ∨ ∀ p ∈ parts.head?, p.body? ≠ none) :
    Alternates (t ++ spell parts) (segments.filterMap Segment.key?) := by
  -- `t` is the text that is not yet known to end at a key
  induction hf generalizing t with
  | nil => exact (List.append_nil t).symm ▸ .last ht
  | @cons p segment parts segments hp hf ih =>
    obtain ⟨hw, hq, hparts⟩ := isSplit_cons_iff.mp hs
    cases p with
    | text u =>
      obtain rfl := Except.ok.inj hp
      obtain rfl : t = [] := ha.resolve_right fun h => h _ rfl rfl
      exact ih hparts hw.2 (.inr fun q h => (hq q h).resolve_left (absurd rfl))
    | key body =>
      obtain ⟨name, coercion, hd, hn, rfl⟩ := readKey_eq_ok_iff.mp hp
      have h := Alternates.key ht hw hd hn (ih (t := []) hparts (by simp [opening]) (.inl rfl))
      simpa [Part.spell, Segment.key?] using h

theorem alternates_iff {text : Text} {names : List Text} :
    Alternates text names ↔ ∃ template, ofBody text = .ok template ∧ template.keys = names := by
  constructor
  · intro h
    obtain ⟨parts, segments, hs, hspell, hf, hk⟩ := h.exists_isSplit
    exact ⟨⟨text, segments⟩, ofBody_eq_ok_iff.mpr ⟨rfl, parts, hs, hspell, hf⟩, hk⟩
  · rintro ⟨template, h, rfl⟩
    obtain ⟨-, parts, hs, rfl, hf⟩ := ofBody_eq_ok_iff.mp h
    exact alternates_append (t := []) hs hf (by simp [opening]) (.inl rfl)

/-- A text is read as a template if it alternates between texts in which no key starts and keys,
and then its keys are the names of these. -/
theorem ofBody_accepts_alternations (text : Text) :
    ((∃ template, ofBody text = .ok template) ↔ ∃ names, Alternates text names) ∧
    ∀ template, ofBody text = .ok template →
      ∀ names, Alternates text names ↔ names = template.keys := by
  simp only [alternates_iff]
  constructor
  · constructor
    · rintro ⟨template, h⟩
      exact ⟨_, template, h, rfl⟩
    · rintro ⟨names, template, h, -⟩
      exact ⟨template, h⟩
  · intro template h names
    simp [h, eq_comm]

theorem ofBody_accepts_alternations_braces :
    ∃ template, ofBody "$${ a : text }\x7d ${b$}".toList = .ok template ∧
      ∀ names, Alternates "$${ a : text }\x7d ${b$}".toList names ↔
        names = ["a".toList, "b$".toList] := by
  let template : Template := ⟨"$${ a : text }\x7d ${b$}".toList,
    [.text ['$'], .key ['a'] .text, .text ['}', ' '], .key ['b', '$'] .string]⟩
  have h : ofBody "$${ a : text }\x7d ${b$}".toList = .ok template := by decide +kernel
  exact ⟨template, h, (ofBody_accepts_alternations _).2 template h⟩

end Template

end ChatCommand
