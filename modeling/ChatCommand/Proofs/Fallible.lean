import Mathlib.Data.List.Forall2

/-! # Steps that may fail

When a sequence of steps succeeds, each of its steps does. Applying a step to all elements of a
list gives a list that is in step with it.
-/

namespace ChatCommand

variable {ε ε' α β : Type}

theorem map_eq_ok_iff {x : Except ε α} {f : α → β} {b : β} :
    f <$> x = .ok b ↔ ∃ a, x = .ok a ∧ f a = b := by
  cases x <;> simp [Functor.map, Except.map]

theorem map_eq_error_iff {x : Except ε α} {f : α → β} {e : ε} :
    f <$> x = .error e ↔ x = .error e := by
  cases x <;> simp [Functor.map, Except.map]

theorem bind_eq_ok_iff {x : Except ε α} {f : α → Except ε β} {b : β} :
    (x >>= f) = .ok b ↔ ∃ a, x = .ok a ∧ f a = .ok b := by
  cases x <;> simp [bind, Except.bind]

theorem bind_eq_error_iff {x : Except ε α} {f : α → Except ε β} {e : ε} :
    (x >>= f) = .error e ↔ x = .error e ∨ ∃ a, x = .ok a ∧ f a = .error e := by
  cases x <;> simp [bind, Except.bind]

theorem mapError_eq_ok_iff {x : Except ε α} {f : ε → ε'} {a : α} :
    x.mapError f = .ok a ↔ x = .ok a := by
  cases x <;> simp [Except.mapError]

theorem mapError_eq_error_iff {x : Except ε α} {f : ε → ε'} {e : ε'} :
    x.mapError f = .error e ↔ ∃ e₀, x = .error e₀ ∧ f e₀ = e := by
  cases x <;> simp [Except.mapError]

theorem exists_eq_ok_iff {x : Except ε α} : (∃ a, x = .ok a) ↔ ∀ e, x ≠ .error e := by
  cases x <;> simp

theorem mapM_eq_ok_iff {f : α → Except ε β} {as : List α} {bs : List β} :
    as.mapM f = .ok bs ↔ List.Forall₂ (fun a b => f a = .ok b) as bs := by
  induction as generalizing bs with
  | nil =>
    rw [List.mapM_nil, List.forall₂_nil_left_iff]
    exact ⟨fun h => (Except.ok.inj h).symm, fun h => h ▸ rfl⟩
  | cons a as ih =>
    rw [List.mapM_cons, bind_eq_ok_iff, List.forall₂_cons_left_iff]
    constructor
    · rintro ⟨b, hb, h⟩
      obtain ⟨bs', hbs, h⟩ := bind_eq_ok_iff.mp h
      exact ⟨b, bs', hb, ih.mp hbs, (Except.ok.inj h).symm⟩
    · rintro ⟨b, bs', hb, hbs, rfl⟩
      exact ⟨b, hb, bind_eq_ok_iff.mpr ⟨bs', ih.mpr hbs, rfl⟩⟩

/-- A step fails on a list as it does on the first element on which it fails. -/
theorem mapM_eq_error_iff {f : α → Except ε β} {as : List α} {e : ε} :
    as.mapM f = .error e ↔ ∃ before a after, as = before ++ a :: after ∧ f a = .error e ∧
      ∀ b ∈ before, ∀ e', f b ≠ .error e' := by
  induction as with
  | nil =>
    rw [List.mapM_nil]
    constructor
    · intro h
      cases h
    · rintro ⟨before, a, after, h, -⟩
      simp at h
  | cons a as ih =>
    rw [List.mapM_cons, bind_eq_error_iff]
    constructor
    · rintro (ha | ⟨b, hb, h⟩)
      · exact ⟨[], a, as, rfl, ha, nofun⟩
      · rcases bind_eq_error_iff.mp h with h | ⟨bs, -, h⟩
        · obtain ⟨before, c, after, rfl, hc, hbefore⟩ := ih.mp h
          refine ⟨a :: before, c, after, rfl, hc, List.forall_mem_cons.mpr ⟨?_, hbefore⟩⟩
          intro e' ha
          cases hb.symm.trans ha
        · cases h
    · rintro ⟨before, c, after, h, hc, hbefore⟩
      cases before with
      | nil =>
        obtain ⟨rfl, -⟩ := List.cons.inj h
        exact .inl hc
      | cons b before =>
        obtain ⟨rfl, rfl⟩ := List.cons.inj h
        obtain ⟨hb, hbefore⟩ := List.forall_mem_cons.mp hbefore
        obtain ⟨r, hr⟩ := exists_eq_ok_iff.mpr hb
        refine .inr ⟨r, hr, bind_eq_error_iff.mpr (.inl ?_)⟩
        exact ih.mpr ⟨before, c, after, rfl, hc, hbefore⟩

theorem mapM_id_eq_error_iff_getElem? {xs : List (Except ε α)} {e : ε} :
    xs.mapM id = .error e ↔
      ∃ i : Nat, xs[i]? = some (.error e) ∧ ∀ j < i, ∀ e', xs[j]? ≠ some (.error e') := by
  rw [mapM_eq_error_iff]
  simp only [id]
  constructor
  · rintro ⟨before, x, after, rfl, rfl, hbefore⟩
    refine ⟨before.length, by simp, fun j hj e' h => ?_⟩
    rw [List.getElem?_append_left hj] at h
    exact hbefore _ (List.mem_of_getElem? h) e' rfl
  · rintro ⟨i, hi, hbefore⟩
    obtain ⟨hlt, he⟩ := List.getElem?_eq_some_iff.mp hi
    refine ⟨xs.take i, .error e, xs.drop (i + 1), ?_, rfl, ?_⟩
    · rw [← he, ← List.drop_eq_getElem_cons hlt, List.take_append_drop]
    · rintro x hx e' rfl
      obtain ⟨j, hj, he⟩ := List.mem_take_iff_getElem.mp hx
      exact hbefore j (by omega) e' (he ▸ List.getElem?_eq_getElem _)

/-- If a step fails with the first fault of an element, it fails on a list with the first fault
that any of its elements has. -/
theorem mapM_eq_error_iff_head? {f : α → Except ε β} {faults : α → List ε}
    (h : ∀ a e, f a = .error e ↔ (faults a).head? = some e) {as : List α} {e : ε} :
    as.mapM f = .error e ↔ (as.flatMap faults).head? = some e := by
  have hn : ∀ a, (∀ e', f a ≠ .error e') ↔ (faults a).head? = none := by
    intro a
    simp only [ne_eq, h, Option.eq_none_iff_forall_ne_some]
  rw [mapM_eq_error_iff, List.head?_flatMap, List.findSome?_eq_some_iff]
  simp only [h, hn]

@[simp] theorem ok_bind (a : α) (f : α → Except ε β) : (Except.ok a >>= f) = f a := rfl

@[simp] theorem error_bind (e : ε) (f : α → Except ε β) : (Except.error e >>= f) = .error e := rfl

section Lists

variable {R : α → β → Prop}

theorem exists_of_forall₂_append_cons {before after : List α} {a : α} {bs : List β}
    (h : List.Forall₂ R (before ++ a :: after) bs) :
    ∃ before' b after', bs = before' ++ b :: after' ∧ R a b ∧ List.Forall₂ R after after' := by
  induction before generalizing bs with
  | nil =>
    obtain ⟨b, bs, hb, hr, rfl⟩ := List.forall₂_cons_left_iff.mp h
    exact ⟨[], b, bs, rfl, hb, hr⟩
  | cons c before ih =>
    obtain ⟨d, bs, -, hr, rfl⟩ := List.forall₂_cons_left_iff.mp h
    obtain ⟨before', b, after', rfl, hb, ha⟩ := ih hr
    exact ⟨d :: before', b, after', rfl, hb, ha⟩

theorem exists_forall₂_iff {as : List α} :
    (∃ bs, List.Forall₂ R as bs) ↔ ∀ a ∈ as, ∃ b, R a b := by
  induction as with
  | nil => simp
  | cons a as ih =>
    rw [List.forall_mem_cons, ← ih]
    constructor
    · rintro ⟨_, hbs⟩
      obtain ⟨b, bs, hb, hr, rfl⟩ := List.forall₂_cons_left_iff.mp hbs
      exact ⟨⟨b, hb⟩, bs, hr⟩
    · rintro ⟨⟨b, hb⟩, bs, hbs⟩
      exact ⟨b :: bs, .cons hb hbs⟩

theorem forall_mem_iff_of_forall₂ {as : List α} {bs : List β} (h : List.Forall₂ R as bs)
    {p : α → Prop} {q : β → Prop} (hpq : ∀ a b, R a b → (p a ↔ q b)) :
    (∀ a ∈ as, p a) ↔ ∀ b ∈ bs, q b := by
  induction h with
  | nil => simp
  | cons hab _ ih => rw [List.forall_mem_cons, List.forall_mem_cons, hpq _ _ hab, ih]

end Lists

theorem exists_mapM_eq_ok_iff {f : α → Except ε β} {as : List α} :
    (∃ bs, as.mapM f = .ok bs) ↔ ∀ a ∈ as, ∃ b, f a = .ok b := by
  simp only [mapM_eq_ok_iff, exists_forall₂_iff]

theorem exists_mapM_mapIdx_eq_ok_iff {f : Nat → α → Except ε β} {as : List α} :
    (∃ bs, (as.mapIdx f).mapM id = .ok bs) ↔
      ∀ (i : Nat) (a : α), as[i]? = some a → ∃ b, f i a = .ok b := by
  rw [exists_mapM_eq_ok_iff]
  constructor
  · intro h i a hi
    obtain ⟨hlt, rfl⟩ := List.getElem?_eq_some_iff.mp hi
    exact h _ (List.mem_mapIdx.mpr ⟨i, hlt, rfl⟩)
  · intro h x hx
    obtain ⟨i, hlt, rfl⟩ := List.mem_mapIdx.mp hx
    exact h i _ (List.getElem?_eq_getElem hlt)

section Alike

variable {α' β' : Type} {R : α → α' → Prop} {S : β → β' → Prop}

/-- Both fail with the same error, or both succeed with results that are related. -/
inductive Alike (R : α → α' → Prop) : Except ε α → Except ε α' → Prop
  | error (e : ε) : Alike R (.error e) (.error e)
  | ok {a : α} {a' : α'} (h : R a a') : Alike R (.ok a) (.ok a')

namespace Alike

variable {x : Except ε α} {y : Except ε α'}

theorem bind {f : α → Except ε β} {g : α' → Except ε β'} (h : Alike R x y)
    (hf : ∀ a a', R a a' → Alike S (f a) (g a')) : Alike S (x >>= f) (y >>= g) := by
  cases h with
  | error e => exact .error e
  | ok h => exact hf _ _ h

theorem eq_error_iff (h : Alike R x y) {e : ε} : x = .error e ↔ y = .error e := by
  cases h with
  | error e' => simp
  | ok h => simp

theorem exists_of_eq_ok (h : Alike R x y) {a : α} (hx : x = .ok a) : ∃ a', y = .ok a' ∧ R a a' := by
  cases h with
  | error e => cases hx
  | ok h =>
    obtain rfl := Except.ok.inj hx
    exact ⟨_, rfl, h⟩

theorem forall_ne_ok_iff (h : Alike R x y) : (∀ a, x ≠ .ok a) ↔ ∀ a', y ≠ .ok a' := by
  cases h with
  | error e => simp
  | ok h => simp

end Alike

end Alike

end ChatCommand
