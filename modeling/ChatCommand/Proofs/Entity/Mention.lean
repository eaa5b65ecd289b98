import ChatCommand.Entity.Id
import ChatCommand.Proofs.Entity.Id

/-! # The forms of mentions

An id is written down in one of a few forms, some of which are accepted for one kind of mention
only. A text has at most one form, so the id in it is the value of its only numeral.
-/

namespace ChatCommand

open Text

namespace Mention

inductive Form where
  | bare
  | channel
  | user
  | nickname
  | role
  | emoji (name : Text)
  | animated (name : Text)
  deriving DecidableEq, Repr

namespace Form

def mark : Form → Text
  | bare => []
  | channel => ['#']
  | user => ['@']
  | nickname => ['@', '!']
  | role => ['@', '&']
  | emoji name => ':' :: name ++ [':']
  | animated name => 'a' :: ':' :: name ++ [':']

def write (numeral : Text) : Form → Text
  | bare => numeral
  | form => '<' :: (form.mark ++ numeral) ++ ['>']

/-- The form is accepted for mentions of the kind. The name of an emoji has no colon. -/
inductive Fits : Form → Mention → Prop where
  | bare (kind : Mention) : Fits bare kind
  | channel (kind : Mention) : Fits channel kind
  | user : Fits user .user
  | nickname : Fits nickname .user
  | role : Fits role .role
  | emoji {name : Text} : ':' ∉ name → Fits (emoji name) .emoji
  | animated {name : Text} : ':' ∉ name → Fits (animated name) .emoji

variable {form form' : Form} {numeral numeral' : Text} {kind kind' : Mention}

theorem kind_eq_of_fits (h : form.Fits kind) (h' : form.Fits kind') (hb : form ≠ bare)
    (hc : form ≠ channel) : kind = kind' := by
  cases h with
  | bare => exact absurd rfl hb
  | channel => exact absurd rfl hc
  | _ =>
    cases h'
    rfl

theorem write_of_ne_bare (h : form ≠ bare) (numeral : Text) :
    form.write numeral = '<' :: (form.mark ++ numeral) ++ ['>'] := by
  cases form with
  | bare => exact absurd rfl h
  | _ => rfl

theorem mark_injective : Function.Injective mark := by
  intro form form' h
  cases form <;> cases form' <;> simp_all [mark]

theorem exists_mark_eq_concat (h : form ≠ bare) :
    ∃ front last, form.mark = front ++ [last] ∧ Decimal.isDigit last = false := by
  cases form with
  | bare => exact absurd rfl h
  | channel => exact ⟨[], '#', rfl, by decide⟩
  | user => exact ⟨[], '@', rfl, by decide⟩
  | nickname => exact ⟨['@'], '!', rfl, by decide⟩
  | role => exact ⟨['@'], '&', rfl, by decide⟩
  | emoji name => exact ⟨':' :: name, ':', rfl, by decide⟩
  | animated name => exact ⟨'a' :: ':' :: name, ':', rfl, by decide⟩

theorem eq_nil_of_suffix_mark (h : form ≠ bare) {t : Text} (ht : t <:+ form.mark)
    (hd : ∀ c ∈ t, Decimal.isDigit c = true) : t = [] := by
  obtain ⟨front, last, hm, hl⟩ := exists_mark_eq_concat h
  rcases List.suffix_concat_iff.mp (hm ▸ ht) with rfl | ⟨r, rfl, -⟩
  · rfl
  · have := hd last (List.mem_append_right _ List.mem_cons_self)
    rw [hl] at this
    cases this

/-- The numeral is made of all digits at the end, and the mark of what stands in front of them. -/
theorem eq_of_mark_append_eq (h : form ≠ bare) (h' : form' ≠ bare) (hn : Id.IsNumeral numeral)
    (hn' : Id.IsNumeral numeral') (he : form.mark ++ numeral = form'.mark ++ numeral') :
    form = form' ∧ numeral = numeral' := by
  -- one mark goes on with digits of the other numeral, but marks do not end in digits
  rcases List.append_eq_append_iff.mp he with ⟨t, hm, rfl⟩ | ⟨t, hm, rfl⟩
  · obtain rfl := eq_nil_of_suffix_mark h' ⟨_, hm.symm⟩ fun c hc =>
      hn.digits c (List.mem_append_left _ hc)
    exact ⟨mark_injective (by simp [hm]), rfl⟩
  · obtain rfl := eq_nil_of_suffix_mark h ⟨_, hm.symm⟩ fun c hc =>
      hn'.digits c (List.mem_append_left _ hc)
    exact ⟨mark_injective (by simp [hm]), rfl⟩

theorem write_ne_numeral (h : form ≠ bare) (hn : Id.IsNumeral numeral') :
    form.write numeral ≠ numeral' := by
  rintro rfl
  rw [write_of_ne_bare h] at hn
  exact absurd (hn.digits '<' List.mem_cons_self) (by decide)

theorem eq_of_write_eq (hn : Id.IsNumeral numeral) (hn' : Id.IsNumeral numeral')
    (he : form.write numeral = form'.write numeral') : form = form' ∧ numeral = numeral' := by
  by_cases h : form = bare
  · subst h
    by_cases h' : form' = bare
    · subst h'
      exact ⟨rfl, he⟩
    · exact absurd he.symm (write_ne_numeral h' hn)
  · by_cases h' : form' = bare
    · subst h'
      exact absurd he (write_ne_numeral h hn')
    · rw [write_of_ne_bare h, write_of_ne_bare h'] at he
      exact eq_of_mark_append_eq h h' hn hn' (List.cons.inj (List.append_cancel_right he)).2

end Form

def Refers (kind : Mention) (t : Text) (id : Id) : Prop :=
  ∃ form numeral, Form.Fits form kind ∧ Id.IsNumeral numeral ∧ form.write numeral = t ∧
    id = ⟨Id.decimalValue numeral⟩

variable {kind : Mention} {t : Text} {id : Id}

theorem exists_mark_of_inner? : kind.inner? t = some id →
    ∃ form numeral, Form.Fits form kind ∧ form ≠ .bare ∧ form.mark ++ numeral = t ∧
      Id.ofText? numeral = some id := by
  fun_cases inner? kind t with
  | case1 => exact nofun
  | case2 numeral => exact fun h => ⟨.nickname, numeral, .nickname, nofun, rfl, h⟩
  | case3 numeral => exact fun h => ⟨.user, numeral, .user, nofun, rfl, h⟩
  | case4 numeral => exact fun h => ⟨.role, numeral, .role, nofun, rfl, h⟩
  | case5 r =>
    intro h
    obtain ⟨⟨name, numeral⟩, hs, hn⟩ := Option.bind_eq_some_iff.mp h
    obtain ⟨rfl, hc⟩ := eq_of_splitOnce? hs
    exact ⟨.animated name, numeral, .animated hc, nofun, by simp [Form.mark], hn⟩
  | case6 r =>
    intro h
    obtain ⟨⟨name, numeral⟩, hs, hn⟩ := Option.bind_eq_some_iff.mp h
    obtain ⟨rfl, hc⟩ := eq_of_splitOnce? hs
    exact ⟨.emoji name, numeral, .emoji hc, nofun, by simp [Form.mark], hn⟩
  | case7 => exact nofun

theorem refers_of_extract? (h : kind.extract? t = some id) : kind.Refers t id := by
  rcases Option.or_eq_some_iff.mp h with ho | ⟨-, hi⟩
  · obtain ⟨hn, rfl⟩ := Id.ofText?_eq_some_iff.mp ho
    exact ⟨.bare, t, .bare kind, hn, rfl, rfl⟩
  · obtain ⟨inside, hi, hm⟩ := Option.bind_eq_some_iff.mp hi
    obtain ⟨r, hr, hi⟩ := Option.bind_eq_some_iff.mp hi
    obtain rfl := after?_eq_some_iff.mp hr
    obtain rfl := before?_eq_some_iff.mp hi
    have hform : ∃ form numeral, Form.Fits form kind ∧ form ≠ .bare ∧
        form.mark ++ numeral = inside ∧ Id.ofText? numeral = some id := by
      rcases Option.or_eq_some_iff.mp hm with hc | ⟨-, hk⟩
      · obtain ⟨numeral, ha, ho⟩ := Option.bind_eq_some_iff.mp hc
        exact ⟨.channel, numeral, .channel kind, nofun, (after?_eq_some_iff.mp ha).symm, ho⟩
      · exact exists_mark_of_inner? hk
    obtain ⟨form, numeral, hf, hb, rfl, ho⟩ := hform
    obtain ⟨hn, rfl⟩ := Id.ofText?_eq_some_iff.mp ho
    exact ⟨form, numeral, hf, hn, Form.write_of_ne_bare hb numeral, rfl⟩

theorem extract?_bracketed (inside : Text) :
    kind.extract? ('<' :: inside ++ ['>']) =
      ((after? ['#'] inside).bind Id.ofText?).or (kind.inner? inside) := by
  have ha : after? ['<'] ('<' :: inside ++ ['>']) = some (inside ++ ['>']) :=
    after?_eq_some_iff.mpr rfl
  have hb : before? ['>'] (inside ++ ['>']) = some inside := before?_eq_some_iff.mpr rfl
  rw [extract?, List.cons_append, Id.ofText?_eq_none_of_cons (by decide), Option.none_or,
    ← List.cons_append, ha, Option.bind_some, hb, Option.bind_some]

theorem extract?_of_fits {form : Form} {numeral : Text} (hf : form.Fits kind)
    (hn : Id.IsNumeral numeral) :
    kind.extract? (form.write numeral) = some ⟨Id.decimalValue numeral⟩ := by
  have ho : Id.ofText? numeral = some ⟨Id.decimalValue numeral⟩ :=
    Id.ofText?_eq_some_iff.mpr ⟨hn, rfl⟩
  by_cases hb : form = .bare
  · subst hb
    exact Option.or_eq_some_iff.mpr (.inl ho)
  rw [Form.write_of_ne_bare hb, extract?_bracketed]
  cases hf with
  | bare => exact absurd rfl hb
  | channel => simp [Form.mark, after?, ho]
  | user =>
    -- no numeral starts with an exclamation mark
    obtain ⟨c, r, rfl, hc⟩ := hn.exists_cons
    have hi : inner? .user ('@' :: c :: r) = Id.ofText? (c :: r) := by
      rw [inner?]
      rintro t he
      obtain ⟨rfl, -⟩ := List.cons.inj he
      exact absurd hc (by decide)
    simp [Form.mark, after?, hi, ho]
  | nickname => simp [Form.mark, after?, inner?, ho]
  | role => simp [Form.mark, after?, inner?, ho]
  | emoji hc => simp [Form.mark, after?, inner?, splitOnce?_append hc, ho]
  | animated hc => simp [Form.mark, after?, inner?, splitOnce?_append hc, ho]

theorem extract?_eq_some_iff : kind.extract? t = some id ↔ kind.Refers t id := by
  constructor
  · exact refers_of_extract?
  · rintro ⟨form, numeral, hf, hn, rfl, rfl⟩
    exact extract?_of_fits hf hn

/-- An id is read from a text if the text is its numeral in a form that is accepted for the kind.
The text has no other form, and one of a single kind is accepted for no other kind. -/
theorem extract?_by_form (t : Text) :
    (∀ (kind : Mention) (id : Id), kind.extract? t = some id ↔
      ∃ form numeral, Form.Fits form kind ∧ Id.IsNumeral numeral ∧ form.write numeral = t ∧
        id = ⟨Id.decimalValue numeral⟩) ∧
    (∀ (form form' : Form) (numeral numeral' : Text), Id.IsNumeral numeral →
      Id.IsNumeral numeral' → form.write numeral = t → form'.write numeral' = t →
      form = form' ∧ numeral = numeral') ∧
    ∀ (form : Form) (numeral : Text) (kind : Mention), form.Fits kind → form ≠ .bare →
      form ≠ .channel → Id.IsNumeral numeral → form.write numeral = t →
      ∀ kind' : Mention, kind'.extract? t ≠ none ↔ kind' = kind := by
  refine ⟨fun kind id => extract?_eq_some_iff, ?_, ?_⟩
  · rintro form form' numeral numeral' hn hn' rfl he
    exact Form.eq_of_write_eq hn hn' he.symm
  · rintro form numeral kind hf hb hc hn rfl kind'
    constructor
    · intro h
      obtain ⟨id, hid⟩ := Option.ne_none_iff_exists'.mp h
      obtain ⟨form', numeral', hf', hn', he, -⟩ := extract?_eq_some_iff.mp hid
      obtain ⟨rfl, rfl⟩ := Form.eq_of_write_eq hn' hn he
      exact Form.kind_eq_of_fits hf' hf hb hc
    · rintro rfl
      rw [extract?_of_fits hf hn]
      exact Option.some_ne_none _

theorem extract?_by_form_animated :
    extract? .emoji "<a::00000000000000042>".toList = some ⟨42⟩ ∧
      (∀ kind, extract? kind "<a::00000000000000042>".toList ≠ none ↔ kind = .emoji) ∧
      ∀ (form : Form) (numeral : Text), Id.IsNumeral numeral →
        form.write numeral = "<a::00000000000000042>".toList → form = .animated [] := by
  obtain ⟨hiff, hunique, hkind⟩ := extract?_by_form "<a::00000000000000042>".toList
  have hn : Id.IsNumeral "00000000000000042".toList :=
    ⟨by decide, by decide, List.all_eq_true.mp (by decide)⟩
  have hf : Form.Fits (.animated []) .emoji := .animated nofun
  refine ⟨(hiff _ _).mpr ⟨_, _, hf, hn, rfl, by decide⟩, ?_, fun form numeral hn' hw => ?_⟩
  · exact hkind _ _ _ hf nofun nofun hn rfl
  · exact (hunique form _ _ _ hn' hn hw rfl).1

end Mention

end ChatCommand
