import Mathlib.Data.List.Induction
import ChatCommand.Matching.Choice
import ChatCommand.Proofs.Fallible

/-! # Declared usages

Usages are declared one after the other, and a pattern that cannot be read declares nothing. The
usage that is found is the last declared one that accepts the input on its own: a further usage wins
if it accepts, and changes nothing if it does not, unless it is the first.
-/

namespace ChatCommand.Usages

variable {α β γ : Type} {items : List Text} {text : Text}

theorem findFrom_eq_success_iff {failed : Outcome α} {entries : List (Usage × α)} {handler : α}
    {m : Matched} (hf : ∀ h m, failed ≠ .success h m) :
    findFrom failed items text entries = .success handler m ↔ ∃ before usage after,
      entries = before ++ (usage, handler) :: after ∧ usage.attempt items text = .ok m ∧
      ∀ entry ∈ before, ∀ m', entry.1.attempt items text ≠ .ok m' := by
  induction entries generalizing failed with
  | nil => simp [findFrom, hf]
  | cons entry entries ih =>
    obtain ⟨usage, g⟩ := entry
    rw [findFrom]
    cases ha : usage.attempt items text with
    | ok m' =>
      constructor
      · intro h
        obtain ⟨rfl, rfl⟩ := Outcome.success.inj h
        exact ⟨[], usage, entries, rfl, ha, nofun⟩
      · rintro ⟨before, usage', after, hcons, hm, hb⟩
        cases before with
        | nil =>
          obtain ⟨he, -⟩ := List.cons.inj hcons
          obtain ⟨rfl, rfl⟩ := Prod.mk.inj he
          rw [Except.ok.inj (ha.symm.trans hm)]
        | cons b before =>
          obtain ⟨rfl, -⟩ := List.cons.inj hcons
          exact absurd ha (hb _ List.mem_cons_self m')
    | error failure =>
      refine (ih (by simp)).trans ⟨?_, ?_⟩
      · rintro ⟨before, usage', after, rfl, hm, hb⟩
        refine ⟨(usage, g) :: before, usage', after, rfl, hm, List.forall_mem_cons.mpr ⟨?_, hb⟩⟩
        intro m' h
        cases ha.symm.trans h
      · rintro ⟨before, usage', after, hcons, hm, hb⟩
        cases before with
        | nil =>
          obtain ⟨he, -⟩ := List.cons.inj hcons
          obtain ⟨rfl, -⟩ := Prod.mk.inj he
          cases ha.symm.trans hm
        | cons b before =>
          obtain ⟨-, rfl⟩ := List.cons.inj hcons
          exact ⟨before, usage', after, rfl, hm, (List.forall_mem_cons.mp hb).2⟩

/-- A usage is found if it accepts and none declared behind it does. -/
theorem find_eq_success_iff {usages : Usages α} {handler : α} {m : Matched} :
    usages.find items text = .success handler m ↔ ∃ before usage after,
      usages.entries = before ++ (usage, handler) :: after ∧ usage.attempt items text = .ok m ∧
      ∀ entry ∈ after, ∀ m', entry.1.attempt items text ≠ .ok m' := by
  rw [find, findFrom_eq_success_iff (by simp)]
  constructor
  · rintro ⟨before, usage, after, he, hm, hb⟩
    refine ⟨after.reverse, usage, before.reverse, ?_, hm, by simpa using hb⟩
    simpa using congrArg List.reverse he
  · rintro ⟨before, usage, after, he, hm, ha⟩
    exact ⟨after.reverse, usage, before.reverse, by simp [he], hm, by simpa using ha⟩

theorem exists_of_find {usages : Usages α} {handler : α} {m : Matched}
    (h : usages.find items text = .success handler m) :
    ∃ usage, (usage, handler) ∈ usages.entries ∧ usage.attempt items text = .ok m := by
  obtain ⟨before, usage, after, he, hm, -⟩ := find_eq_success_iff.mp h
  exact ⟨usage, he ▸ List.mem_append_right _ List.mem_cons_self, hm⟩

def tryAdd (usages : Usages α) (call : Text × α) : Usages α :=
  match usages.add call.1 call.2 with
  | .ok more => more
  | .error _ => usages

/-- The usages that a sequence of calls declares. -/
def ofCalls (calls : List (Text × α)) : Usages α := calls.foldl tryAdd empty

/-- The same usages, each with its place in the order of declaration as its handler. -/
def numbered (usages : Usages α) : Usages Nat :=
  ⟨usages.entries.mapIdx fun i entry => (entry.1, i)⟩

section Alone

variable {entry : Usage × α}

theorem find_singleton (entry : Usage × α) (items : List Text) (text : Text) :
    (mk [entry]).find items text = match entry.1.attempt items text with
      | .ok m => .success entry.2 m
      | .error failure => .failure failure := by
  obtain ⟨usage, handler⟩ := entry
  rw [find, List.reverse_singleton, findFrom]
  cases usage.attempt items text <;> rfl

theorem find_singleton_eq_success_iff {handler : α} {m : Matched} :
    (mk [entry]).find items text = .success handler m ↔
      entry.1.attempt items text = .ok m ∧ entry.2 = handler := by
  rw [find_singleton]
  cases entry.1.attempt items text with
  | ok m' => simp [and_comm]
  | error failure => simp

theorem find_singleton_eq_failure_iff {failure : Failure} :
    (mk [entry]).find items text = .failure failure ↔
      entry.1.attempt items text = .error failure := by
  rw [find_singleton]
  cases entry.1.attempt items text <;> simp

theorem exists_failure_iff :
    (∃ failure, (mk [entry]).find items text = .failure failure) ↔
      ∀ m, entry.1.attempt items text ≠ .ok m := by
  simp only [find_singleton_eq_failure_iff]
  cases entry.1.attempt items text <;> simp

end Alone

/-- A usage that is declared last wins if it accepts. Otherwise the usages before it are left to
decide, if there are any. -/
theorem find_concat (entries : List (Usage × α)) (entry : Usage × α) :
    (mk (entries ++ [entry])).find items text = match entry.1.attempt items text with
      | .ok m => .success entry.2 m
      | .error failure =>
        if entries = [] then .failure failure else (mk entries).find items text := by
  obtain ⟨usage, handler⟩ := entry
  rw [find, List.reverse_concat, findFrom]
  cases usage.attempt items text with
  | ok m => rfl
  | error failure =>
    dsimp only
    split
    · next hn => rw [hn, List.reverse_nil, findFrom]
    · next hn =>
      obtain ⟨last, others, hr⟩ := List.exists_cons_of_ne_nil (mt List.reverse_eq_nil_iff.mp hn)
      rw [find, hr]
      rfl

theorem find_eq_empty_iff {usages : Usages α} :
    usages.find items text = .empty ↔ usages.entries = [] := by
  obtain ⟨entries⟩ := usages
  induction entries using List.reverseRecOn with
  | nil => simp [find, findFrom]
  | append_singleton entries entry ih =>
    rw [find_concat]
    cases entry.1.attempt items text with
    | ok m => simp
    | error failure =>
      dsimp only
      split
      · simp
      · next hn => simpa [hn] using ih

theorem exists_success_concat {entries : List (Usage × α)} {handler : α} {m : Matched}
    (h : (mk entries).find items text = .success handler m) (entry : Usage × α) :
    ∃ handler' m', (mk (entries ++ [entry])).find items text = .success handler' m' := by
  rw [find_concat]
  cases entry.1.attempt items text with
  | ok m' => exact ⟨entry.2, m', rfl⟩
  | error failure =>
    have hn : entries ≠ [] := by
      rintro rfl
      simp [find, findFrom] at h
    exact ⟨handler, m, (if_neg hn).trans h⟩

theorem find_concat_of_fails {entries : List (Usage × α)} {entry : Usage × α}
    (hf : ∀ m, entry.1.attempt items text ≠ .ok m)
    (hn : (mk entries).find items text ≠ .empty) :
    (mk (entries ++ [entry])).find items text = (mk entries).find items text := by
  rw [find_concat]
  cases ha : entry.1.attempt items text with
  | ok m => exact absurd ha (hf m)
  | error failure => exact if_neg (mt find_eq_empty_iff.mpr hn)

theorem find_eq_failure_iff {usages : Usages α} {failure : Failure} :
    usages.find items text = .failure failure ↔
      (∀ entry ∈ usages.entries, ∀ m, entry.1.attempt items text ≠ .ok m) ∧
      ∃ first, usages.entries.head? = some first ∧
        first.1.attempt items text = .error failure := by
  obtain ⟨entries⟩ := usages
  induction entries using List.reverseRecOn with
  | nil => simp [find, findFrom]
  | append_singleton entries entry ih =>
    rw [find_concat, List.head?_append]
    cases ha : entry.1.attempt items text with
    | ok m =>
      simp only [reduceCtorEq, false_iff]
      rintro ⟨hall, -⟩
      exact hall entry (by simp) m ha
    | error failure' =>
      dsimp only
      split
      · next hn => simp [hn, ha]
      · next hn =>
        obtain ⟨first, others, rfl⟩ := List.exists_cons_of_ne_nil hn
        rw [ih]
        simp [ha, or_imp, forall_and]

theorem find_eq_success_iff_getElem? {usages : Usages α} {handler : α} {m : Matched} :
    usages.find items text = .success handler m ↔ ∃ (i : Nat) (usage : Usage),
      usages.entries[i]? = some (usage, handler) ∧ usage.attempt items text = .ok m ∧
      ∀ (j : Nat) (later : Usage × α), i < j → usages.entries[j]? = some later →
        ∀ m', later.1.attempt items text ≠ .ok m' := by
  rw [find_eq_success_iff]
  constructor
  · rintro ⟨before, usage, after, he, hm, ha⟩
    refine ⟨before.length, usage, by simp [he], hm, fun j later hj hl => ha later ?_⟩
    obtain ⟨k, rfl⟩ := Nat.exists_eq_add_of_lt hj
    rw [he, List.getElem?_append_right (by omega), Nat.add_assoc, Nat.add_sub_cancel_left,
      List.getElem?_cons_succ] at hl
    exact List.mem_of_getElem? hl
  · rintro ⟨i, usage, hi, hm, ha⟩
    obtain ⟨hlt, he⟩ := List.getElem?_eq_some_iff.mp hi
    refine ⟨usages.entries.take i, usage, usages.entries.drop (i + 1), ?_, hm, ?_⟩
    · rw [← he, ← List.drop_eq_getElem_cons hlt, List.take_append_drop]
    · intro later hl
      obtain ⟨k, hk⟩ := List.getElem?_of_mem hl
      rw [List.getElem?_drop] at hk
      exact ha _ later (by omega) hk

theorem getElem?_numbered_eq_some_iff {usages : Usages α} {i k : Nat} {usage : Usage} :
    usages.numbered.entries[i]? = some (usage, k) ↔
      k = i ∧ ∃ handler, usages.entries[i]? = some (usage, handler) := by
  rw [numbered, List.getElem?_mapIdx, Option.map_eq_some_iff]
  constructor
  · rintro ⟨entry, he, hp⟩
    obtain ⟨rfl, rfl⟩ := Prod.mk.inj hp
    exact ⟨rfl, entry.2, he⟩
  · rintro ⟨rfl, handler, he⟩
    exact ⟨(usage, handler), he, rfl⟩

theorem find_numbered_eq_success_iff {usages : Usages α} {i : Nat} {m : Matched} :
    usages.numbered.find items text = .success i m ↔ ∃ entry : Usage × α,
      usages.entries[i]? = some entry ∧ entry.1.attempt items text = .ok m ∧
      ∀ (j : Nat) (later : Usage × α), i < j → usages.entries[j]? = some later →
        ∀ m', later.1.attempt items text ≠ .ok m' := by
  rw [find_eq_success_iff_getElem?]
  constructor
  · rintro ⟨k, usage, hk, hm, hl⟩
    obtain ⟨rfl, handler, he⟩ := getElem?_numbered_eq_some_iff.mp hk
    refine ⟨(usage, handler), he, hm, fun j later hj hlater => ?_⟩
    exact hl j (later.1, j) hj (getElem?_numbered_eq_some_iff.mpr ⟨rfl, later.2, hlater⟩)
  · rintro ⟨⟨usage, handler⟩, he, hm, hl⟩
    refine ⟨i, usage, getElem?_numbered_eq_some_iff.mpr ⟨rfl, handler, he⟩, hm, ?_⟩
    rintro j ⟨later, k⟩ hj hlater
    obtain ⟨-, handler', hlater⟩ := getElem?_numbered_eq_some_iff.mp hlater
    exact hl j (later, handler') hj hlater

theorem find_eq_success_iff_numbered {usages : Usages α} {handler : α} {m : Matched} :
    usages.find items text = .success handler m ↔ ∃ (i : Nat) (usage : Usage),
      usages.entries[i]? = some (usage, handler) ∧
      usages.numbered.find items text = .success i m := by
  rw [find_eq_success_iff_getElem?]
  simp only [find_numbered_eq_success_iff]
  constructor
  · rintro ⟨i, usage, hi, hm, hl⟩
    exact ⟨i, usage, hi, (usage, handler), hi, hm, hl⟩
  · rintro ⟨i, usage, hi, entry, he, hm, hl⟩
    obtain rfl := Option.some.inj (hi.symm.trans he)
    exact ⟨i, usage, hi, hm, hl⟩

theorem fst_parse_eq_some_iff {usages : Usages α} {onSuccess : α → Matched → β}
    {onError : Failure → γ} {b : β} :
    (usages.parse items text onSuccess onError).1 = some b ↔ ∃ handler m,
      usages.find items text = .success handler m ∧ onSuccess handler m = b := by
  rw [parse]
  cases usages.find items text <;> simp [Outcome.success?]

theorem snd_parse_eq_some_iff {usages : Usages α} {onSuccess : α → Matched → β}
    {onError : Failure → γ} {c : γ} :
    (usages.parse items text onSuccess onError).2 = some c ↔ ∃ failure,
      usages.find items text = .failure failure ∧ onError failure = c := by
  rw [parse]
  cases usages.find items text <;> simp [Outcome.failure?]

theorem add_eq_ok_iff {usages more : Usages α} {pattern : Text} {handler : α} :
    usages.add pattern handler = .ok more ↔
      ∃ usage, Usage.ofPattern pattern = .ok usage ∧
        more = ⟨usages.entries ++ [(usage, handler)]⟩ := by
  rw [add, bind_eq_ok_iff]
  simp only [pure, Except.pure, Except.ok.injEq, eq_comm]

theorem add_eq_error_iff {usages : Usages α} {pattern : Text} {handler : α}
    {e : Usage.PatternError} :
    usages.add pattern handler = .error e ↔ Usage.ofPattern pattern = .error e := by
  rw [add]
  cases Usage.ofPattern pattern <;> simp [bind, Except.bind, pure, Except.pure]

theorem ofCalls_concat (calls : List (Text × α)) (call : Text × α) :
    ofCalls (calls ++ [call]) = (ofCalls calls).tryAdd call :=
  List.foldl_concat ..

theorem entries_ofCalls_eq_nil_iff {calls : List (Text × α)} :
    (ofCalls calls).entries = [] ↔ ∀ call ∈ calls, ∃ e, Usage.ofPattern call.1 = .error e := by
  induction calls using List.reverseRecOn with
  | nil => simp [ofCalls, empty]
  | append_singleton calls call ih =>
    rw [ofCalls_concat, tryAdd]
    cases hp : Usage.ofPattern call.1 with
    | ok usage =>
      rw [add_eq_ok_iff.mpr ⟨usage, hp, rfl⟩]
      simp [hp, or_imp, forall_and]
    | error e =>
      rw [add_eq_error_iff.mpr hp]
      simp [hp, ih, or_imp, forall_and]

theorem find_ofCalls_eq_empty_iff {calls : List (Text × α)} :
    (ofCalls calls).find items text = .empty ↔ ∀ before call after,
      calls = before ++ call :: after → ∃ e, (ofCalls before).add call.1 call.2 = .error e := by
  rw [find_eq_empty_iff, entries_ofCalls_eq_nil_iff]
  simp only [add_eq_error_iff]
  constructor
  · rintro h before call after rfl
    exact h call (List.mem_append_right _ List.mem_cons_self)
  · intro h call hc
    obtain ⟨before, after, he⟩ := List.append_of_mem hc
    exact h before call after he

/-- Of the usages that a sequence of calls declares, the last that accepts the input on its own is
found, with its own match. If none does, the failure is that of the first, and nothing is found only
if no call declared a usage. A further usage never undoes a success, and changes nothing if it fails
where others were tried. Of the callbacks that for the success gets the match, that for errors the
failure. -/
theorem find_ofCalls (calls : List (Text × α)) (items : List Text) (text : Text) :
    (∀ i m, (ofCalls calls).numbered.find items text = .success i m ↔ ∃ entry : Usage × α,
      (ofCalls calls).entries[i]? = some entry ∧
      (mk [entry]).find items text = .success entry.2 m ∧
      ∀ (j : Nat) (later : Usage × α), i < j → (ofCalls calls).entries[j]? = some later →
        ∃ failure, (mk [later]).find items text = .failure failure) ∧
    (∀ handler m, (ofCalls calls).find items text = .success handler m ↔
      ∃ (i : Nat) (usage : Usage), (ofCalls calls).entries[i]? = some (usage, handler) ∧
        (ofCalls calls).numbered.find items text = .success i m) ∧
    (∀ failure, (ofCalls calls).find items text = .failure failure ↔
      (∀ entry ∈ (ofCalls calls).entries, ∃ f, (mk [entry]).find items text = .failure f) ∧
      ∃ first, (ofCalls calls).entries.head? = some first ∧
        (mk [first]).find items text = .failure failure) ∧
    ((ofCalls calls).find items text = .empty ↔ ∀ before call after,
      calls = before ++ call :: after → ∃ e, (ofCalls before).add call.1 call.2 = .error e) ∧
    (∀ pattern usage handler, Usage.ofPattern pattern = .ok usage →
      ∃ more, (ofCalls calls).add pattern handler = .ok more ∧
        ((∃ g m, (ofCalls calls).find items text = .success g m) →
          ∃ g m, more.find items text = .success g m) ∧
        ((∃ failure, (mk [(usage, handler)]).find items text = .failure failure) →
          (ofCalls calls).find items text ≠ .empty →
          more.find items text = (ofCalls calls).find items text)) ∧
    (∀ (onSuccess : α → Matched → β) (onError : Failure → γ),
      (∀ b, ((ofCalls calls).parse items text onSuccess onError).1 = some b ↔
        ∃ handler m, (ofCalls calls).find items text = .success handler m ∧
          onSuccess handler m = b) ∧
      ∀ c, ((ofCalls calls).parse items text onSuccess onError).2 = some c ↔
        ∃ failure, (ofCalls calls).find items text = .failure failure ∧ onError failure = c) ∧
    ∀ (commands : List (Text × (Matched → β))) (b : β),
      (ofCalls commands).dispatch items text = some b ↔
        ∃ handler m, (ofCalls commands).find items text = .success handler m ∧ handler m = b := by
  simp only [exists_failure_iff]
  simp only [find_singleton_eq_success_iff, find_singleton_eq_failure_iff]
  refine ⟨fun i m => ?_, fun handler m => find_eq_success_iff_numbered,
    fun failure => find_eq_failure_iff, find_ofCalls_eq_empty_iff,
    fun pattern usage handler hp => ?_,
    fun onSuccess onError => ⟨fun b => fst_parse_eq_some_iff, fun c => snd_parse_eq_some_iff⟩,
    fun commands b => fst_parse_eq_some_iff⟩
  · rw [find_numbered_eq_success_iff]
    simp only [and_true]
  · refine ⟨_, add_eq_ok_iff.mpr ⟨usage, hp, rfl⟩, ?_, fun hf hn => ?_⟩
    · rintro ⟨g, m, hs⟩
      exact exists_success_concat hs (usage, handler)
    · exact find_concat_of_fails hf hn

/-- The middle call declares nothing, and what the last usage bound before it failed is forgotten. A
flag that is declared after them leaves two items over, so the match stays the same. -/
theorem find_ofCalls_isolated :
    ∃ m more, (ofCalls [("<x> <y> <z>".toList, 'p'), ("<x".toList, 'q'),
        ("<a> nope <b>".toList, 'r')]).find [['1'], ['2'], ['3']] "1 2 3".toList = .success 'p' m ∧
      m.args.map (·.name) = [['x'], ['y'], ['z']] ∧
      (ofCalls [("<x> <y> <z>".toList, 'p'), ("<x".toList, 'q'),
        ("<a> nope <b>".toList, 'r')]).add "-f".toList 's' = .ok more ∧
      more.find [['1'], ['2'], ['3']] "1 2 3".toList = .success 'p' m := by
  let calls := [("<x> <y> <z>".toList, 'p'), ("<x".toList, 'q'), ("<a> nope <b>".toList, 'r')]
  let usage : Usage := ⟨"<x> <y> <z>".toList,
    [.param ['x'] false false, .param ['y'] false false, .param ['z'] false false]⟩
  let other : Usage := ⟨"<a> nope <b>".toList,
    [.param ['a'] false false, .literal ["nope".toList], .param ['b'] false false]⟩
  let m : Matched := ⟨usage.pattern, [⟨usage.pattern, ['x'], ['1']⟩, ⟨usage.pattern, ['y'], ['2']⟩,
    ⟨usage.pattern, ['z'], ['3']⟩], [], []⟩
  have he : (ofCalls calls).entries = [(usage, 'p'), (other, 'r')] := by decide +kernel
  have hm : usage.attempt [['1'], ['2'], ['3']] "1 2 3".toList = .ok m := by decide +kernel
  have ho : other.attempt [['1'], ['2'], ['3']] "1 2 3".toList =
      .error (.unmatchedOption other.pattern ['2']) := by decide +kernel
  have hf : (Usage.mk "-f".toList [.flag ['f']]).attempt [['1'], ['2'], ['3']] "1 2 3".toList =
      .error (.invalidArguments "-f".toList) := by decide +kernel
  have hp : Usage.ofPattern "-f".toList = .ok ⟨"-f".toList, [.flag ['f']]⟩ := by decide +kernel
  obtain ⟨hplace, hhandler, -, -, hadd, -, -⟩ :=
    find_ofCalls (β := Unit) (γ := Unit) calls [['1'], ['2'], ['3']] "1 2 3".toList
  have hlast : ∀ (j : Nat) (later : Usage × Char), 0 < j →
      (ofCalls calls).entries[j]? = some later →
      ∃ failure, (mk [later]).find [['1'], ['2'], ['3']] "1 2 3".toList = .failure failure := by
    intro j later hj hl
    rw [he] at hl
    match j with
    | 1 =>
      obtain rfl := Option.some.inj hl
      exact ⟨_, find_singleton_eq_failure_iff.mpr ho⟩
    | j + 2 => simp at hl
  have hs : (ofCalls calls).find [['1'], ['2'], ['3']] "1 2 3".toList = .success 'p' m :=
    (hhandler 'p' m).mpr ⟨0, usage, by rw [he]; rfl, (hplace 0 m).mpr
      ⟨(usage, 'p'), by rw [he]; rfl, find_singleton_eq_success_iff.mpr ⟨hm, rfl⟩, hlast⟩⟩
  obtain ⟨more, hmore, -, hsame⟩ := hadd _ _ 's' hp
  refine ⟨m, more, hs, rfl, hmore, ?_⟩
  rw [hsame ⟨_, find_singleton_eq_failure_iff.mpr hf⟩ (by rw [hs]; nofun), hs]

end ChatCommand.Usages
