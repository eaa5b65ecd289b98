import ChatCommand.Proofs.Argument.Lookup
import ChatCommand.Proofs.Fallible

/-! # Filling a template

A template is filled one segment after the other. The first segment that is not filled decides the
reply.
-/

namespace ChatCommand

variable {d : Directories} {messages : Option (List Message)} {m : Matched}

namespace Template

def Segment.reply (d : Directories) (messages : Option (List Message)) (m : Matched) :
    Segment → Except RenderError Reply
  | text t => .ok (.filled t)
  | key name coercion =>
    match m.get? name with
    | none => .error (.noArgument m.usage name)
    | some arg =>
      match coercion.value d messages arg with
      | .error e => .error e
      | .ok none => .ok (.notFound coercion arg.string)
      | .ok (some t) => .ok (.filled t)

def Segment.Resolves (d : Directories) (messages : Option (List Message)) (m : Matched)
    (segment : Segment) : Prop :=
  ∃ t, segment.reply d messages m = .ok (.filled t)

theorem fill_cons (segment : Segment) (rest : List Segment) :
    fill d messages m (segment :: rest) = match segment.reply d messages m with
      | .ok (.filled t) => Reply.after t <$> fill d messages m rest
      | reply => reply := by
  cases segment with
  | text t => rfl
  | key name coercion =>
    rw [fill, Segment.reply]
    cases m.get? name with
    | none => rfl
    | some arg =>
      dsimp only
      cases coercion.value d messages arg with
      | error e => rfl
      | ok value => cases value <;> rfl

theorem fill_cons_of_not_resolves {segment : Segment} (h : ¬ segment.Resolves d messages m)
    (rest : List Segment) :
    fill d messages m (segment :: rest) = segment.reply d messages m := by
  rw [fill_cons]
  split
  · next t ht => exact absurd ⟨t, ht⟩ h
  · rfl

theorem Segment.resolves_key_iff {name : Text} {coercion : Coercion} :
    (key name coercion).Resolves d messages m ↔
      ∃ arg t, m.get? name = some arg ∧ coercion.value d messages arg = .ok (some t) := by
  simp only [Resolves, reply]
  cases m.get? name with
  | none => simp
  | some arg =>
    cases hv : coercion.value d messages arg with
    | error e => simp [hv]
    | ok value => cases value <;> simp [hv]

theorem Segment.reply_key_eq_error_iff {name : Text} {coercion : Coercion} {e : RenderError} :
    (key name coercion).reply d messages m = .error e ↔
      m.get? name = none ∧ e = .noArgument m.usage name ∨
        (∃ arg, m.get? name = some arg) ∧ coercion.refusal? d messages = some e := by
  rw [reply]
  cases m.get? name with
  | none => simp [eq_comm]
  | some arg =>
    dsimp only
    rw [← Coercion.value_eq_error_iff arg]
    cases coercion.value d messages arg with
    | error e' => simp
    | ok value => cases value <;> simp

theorem after_map_eq_iff {t : Text} {x r : Except RenderError Reply}
    (hr : ∀ t', r ≠ .ok (.filled t')) : Reply.after t <$> x = r ↔ x = r := by
  cases x with
  | error e => rfl
  | ok reply =>
    cases reply with
    | filled t' =>
      exact ⟨fun h => absurd h.symm (hr _), fun h => absurd h.symm (hr _)⟩
    | notFound coercion given => rfl

theorem Segment.reply_key_eq_notFound_iff {name given : Text} {coercion coercion' : Coercion} :
    (key name coercion').reply d messages m = .ok (.notFound coercion given) ↔
      coercion' = coercion ∧ ∃ arg, m.get? name = some arg ∧
        coercion.value d messages arg = .ok none ∧ arg.string = given := by
  rw [reply]
  constructor
  · intro h
    split at h
    · cases h
    · next arg ha =>
      split at h
      · cases h
      · next hv =>
        obtain ⟨rfl, hg⟩ := Reply.notFound.inj (Except.ok.inj h)
        exact ⟨rfl, arg, ha, hv, hg⟩
      · cases h
  · rintro ⟨rfl, arg, ha, hv, rfl⟩
    simp only [ha, hv]

/-- A template that is not filled gives what its first segment gives that is not. -/
theorem fill_eq_iff_of_ne_filled {segments : List Segment} {r : Except RenderError Reply}
    (hr : ∀ t, r ≠ .ok (.filled t)) :
    fill d messages m segments = r ↔ ∃ before segment after,
      segments = before ++ segment :: after ∧ (∀ s ∈ before, s.Resolves d messages m) ∧
      segment.reply d messages m = r := by
  induction segments with
  | nil =>
    rw [fill]
    exact ⟨fun h => absurd h.symm (hr _), by simp⟩
  | cons s segments ih =>
    by_cases hs : s.Resolves d messages m
    · obtain ⟨t, ht⟩ := hs
      rw [fill_cons, ht, after_map_eq_iff hr, ih]
      constructor
      · rintro ⟨before, segment, after, rfl, hb, he⟩
        exact ⟨s :: before, segment, after, rfl, List.forall_mem_cons.mpr ⟨⟨t, ht⟩, hb⟩, he⟩
      · rintro ⟨before, segment, after, hcons, hb, he⟩
        cases before with
        | nil =>
          obtain ⟨rfl, -⟩ := List.cons.inj hcons
          exact absurd (he.symm.trans ht) (hr t)
        | cons b before =>
          obtain ⟨-, rfl⟩ := List.cons.inj hcons
          exact ⟨before, segment, after, rfl, (List.forall_mem_cons.mp hb).2, he⟩
    · rw [fill_cons_of_not_resolves hs]
      constructor
      · exact fun h => ⟨[], s, segments, rfl, nofun, h⟩
      · rintro ⟨before, segment, after, hcons, hb, he⟩
        cases before with
        | nil =>
          obtain ⟨rfl, -⟩ := List.cons.inj hcons
          exact he
        | cons b before =>
          obtain ⟨rfl, -⟩ := List.cons.inj hcons
          exact absurd (hb _ List.mem_cons_self) hs

theorem fill_eq_error_iff {segments : List Segment} {e : RenderError} :
    fill d messages m segments = .error e ↔ ∃ before segment after,
      segments = before ++ segment :: after ∧ (∀ s ∈ before, s.Resolves d messages m) ∧
      segment.reply d messages m = .error e :=
  fill_eq_iff_of_ne_filled (by simp)

theorem render_eq_error_iff {template : Template} {e : RenderError} :
    template.render d messages m = .error e ↔
      fill d messages m template.segments = .error e :=
  map_eq_error_iff

theorem render_eq_notFound_iff {template : Template} {coercion : Coercion} {given : Text} :
    template.render d messages m = .ok (.notFound coercion given) ↔
      fill d messages m template.segments = .ok (.notFound coercion given) := by
  rw [render, map_eq_ok_iff]
  constructor
  · rintro ⟨reply, hr, he⟩
    cases reply with
    | filled t => cases he
    | notFound coercion' given' => rw [hr, ← he]; rfl
  · exact fun h => ⟨_, h, rfl⟩

end Template

end ChatCommand
