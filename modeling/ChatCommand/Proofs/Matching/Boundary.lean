import ChatCommand.Matching.Choice
import ChatCommand.Proofs.Matching.Places

/-! # Positions in bytes

A cursor that moves by bytes has to stop where a character ends, as no text can be cut elsewhere,
and it has to find such a position. It always does, and it cuts off the fewest whole characters that
have so many bytes. So no input whatever, items and text that do not belong together included, makes
a search break off.
-/

namespace ChatCommand

open Text

namespace Text

variable {t r : Text} {n pos stop k : Nat}

/-- Whether the position, counted in bytes, is an end of the text or between two characters. -/
def isBoundary (t : Text) (pos : Nat) : Bool := (takeBytes? pos t).isSome

/-- A search for a boundary from one position to the next: it ends at the second position if it
begins at the first. Where it ends at none, it goes on for ever. -/
inductive Stops (t : Text) : Nat → Nat → Prop
  | here {pos : Nat} : isBoundary t pos = true → Stops t pos pos
  | next {pos stop : Nat} : ¬ isBoundary t pos = true → Stops t (pos + 1) stop → Stops t pos stop

def boundaryFrom? (t : Text) (pos : Nat) : Option Nat :=
  if isBoundary t pos then some pos
  else if pos < utf8Size t then boundaryFrom? t (pos + 1)
  else none
termination_by utf8Size t - pos

/-- The text behind a position, which must be a boundary. -/
def behind? (pos : Nat) (t : Text) : Option Text := (takeBytes? pos t).bind (after? · t)

theorem isBoundary_iff : isBoundary t pos = true ↔ ∃ s, s <+: t ∧ utf8Size s = pos := by
  rw [isBoundary, Option.isSome_iff_exists]
  simp only [takeBytes?_eq_some_iff]

theorem behind?_eq_some_iff : behind? pos t = some r ↔ ∃ s, t = s ++ r ∧ utf8Size s = pos := by
  simp only [behind?, Option.bind_eq_some_iff, takeBytes?_eq_some_iff, after?_eq_some_iff]
  constructor
  · rintro ⟨s, ⟨-, hs⟩, ht⟩
    exact ⟨s, ht, hs⟩
  · rintro ⟨s, rfl, hs⟩
    exact ⟨s, ⟨List.prefix_append s r, hs⟩, rfl⟩

theorem exists_behind?_iff : (∃ pos, behind? pos t = some r) ↔ r <:+ t := by
  simp only [behind?_eq_some_iff]
  constructor
  · rintro ⟨-, s, rfl, -⟩
    exact List.suffix_append s r
  · rintro ⟨s, rfl⟩
    exact ⟨utf8Size s, s, rfl, rfl⟩

theorem utf8Size_take_mono {i j : Nat} (h : i ≤ j) :
    utf8Size (t.take i) ≤ utf8Size (t.take j) := by
  obtain ⟨s, hs⟩ := List.take_prefix_take_left (l := t) h
  rw [← hs, utf8Size_append]
  exact Nat.le_add_right _ _

theorem le_of_isBoundary (h : isBoundary t pos = true) : pos ≤ utf8Size t := by
  obtain ⟨s, ⟨r, rfl⟩, rfl⟩ := isBoundary_iff.mp h
  rw [utf8Size_append]
  exact Nat.le_add_right _ _

theorem Stops.bounds (h : Stops t pos stop) : pos ≤ stop ∧ stop ≤ utf8Size t := by
  induction h with
  | here hb => exact ⟨Nat.le_refl _, le_of_isBoundary hb⟩
  | next _ _ ih => exact ⟨Nat.le_of_succ_le ih.1, ih.2⟩

theorem boundaryFrom?_eq_some_iff : boundaryFrom? t pos = some stop ↔ Stops t pos stop := by
  constructor
  · fun_induction boundaryFrom? t pos with
    | case1 pos hb =>
      rintro ⟨⟩
      exact .here hb
    | case2 pos hb hlt ih => exact fun h => .next hb (ih h)
    | case3 pos hb hlt => nofun
  · intro h
    induction h with
    | here hb => rw [boundaryFrom?, if_pos hb]
    | next hb hs ih =>
      have hlt := Nat.lt_of_succ_le (hs.bounds.1.trans hs.bounds.2)
      rw [boundaryFrom?, if_neg hb, if_pos hlt, ih]

/-- The search passes the positions inside of a character one by one. -/
theorem stops_take (hk : pos ≤ utf8Size (t.take k)) (hj : ∀ j < k, utf8Size (t.take j) < pos) :
    Stops t pos (utf8Size (t.take k)) := by
  obtain ⟨d, hd⟩ := Nat.exists_eq_add_of_le hk
  induction d generalizing pos with
  | zero =>
    rw [Nat.add_zero] at hd
    rw [hd]
    exact .here (isBoundary_iff.mpr ⟨t.take k, List.take_prefix k t, hd⟩)
  | succ d ih =>
    have hb : ¬ isBoundary t pos = true := by
      intro hb
      obtain ⟨s, hs, rfl⟩ := isBoundary_iff.mp hb
      rw [List.prefix_iff_eq_take] at hs
      have hle : k ≤ s.length := by
        apply Nat.le_of_not_lt
        intro hlt
        have := hj s.length hlt
        rw [← hs] at this
        omega
      have := utf8Size_take_mono (t := t) hle
      rw [← hs] at this
      omega
    exact .next hb (ih (by omega) (fun j hlt => Nat.lt_succ_of_lt (hj j hlt)) (by omega))

theorem min_le_charsWith (n : Nat) (t : Text) :
    min n (utf8Size t) ≤ utf8Size (t.take (charsWith n t)) := by
  have hlt : charsWith n t < t.inits.length := List.findIdx_lt_length_of_exists
    ⟨t, (List.mem_inits _ _).mpr (List.prefix_refl t), decide_eq_true (Nat.min_le_right _ _)⟩
  have h : min n (utf8Size t) ≤ utf8Size t.inits[charsWith n t] :=
    of_decide_eq_true (List.findIdx_getElem (w := hlt))
  rw [List.getElem_inits] at h
  exact h

theorem lt_of_lt_charsWith {j : Nat} (h : j < charsWith n t) :
    utf8Size (t.take j) < min n (utf8Size t) := by
  have hnot := List.not_of_lt_findIdx h
  simpa only [List.getElem_inits, decide_eq_false_iff_not, Nat.not_le] using hnot

end Text

namespace Cursor

/-- What `skip` leaves, found by a search for a boundary at which the text is cut. -/
def skip? (n : Nat) (t : Text) : Option Text := do
  let pos ← boundaryFrom? t (min n (utf8Size t))
  let rest ← behind? pos t
  return trimStart rest

theorem stops_charsWith (n : Nat) (t : Text) :
    Stops t (min n (utf8Size t)) (utf8Size (t.take (charsWith n t))) :=
  stops_take (min_le_charsWith n t) fun _ => lt_of_lt_charsWith

theorem skip_eq (n : Nat) (t : Text) : skip n t = trimStart (t.drop (charsWith n t)) := by
  rw [skip, dropBytes_eq_drop]

theorem skip?_eq (n : Nat) (t : Text) : skip? n t = some (skip n t) := by
  have hb : behind? (utf8Size (t.take (charsWith n t))) t = some (t.drop (charsWith n t)) :=
    behind?_eq_some_iff.mpr ⟨_, (List.take_append_drop _ t).symm, rfl⟩
  rw [skip?, boundaryFrom?_eq_some_iff.mpr (stops_charsWith n t), Option.bind_eq_bind,
    Option.bind_some, hb, skip_eq]
  rfl

def advance? (c : Cursor) : Option Cursor :=
  match c.items with
  | [] => some c
  | item :: items => (skip? (utf8Size item) c.text).map (⟨items, ·⟩)

theorem advance?_eq (c : Cursor) : c.advance? = some c.advance := by
  obtain ⟨items, text⟩ := c
  cases items with
  | nil => rfl
  | cons item items => simp only [advance?, skip?_eq, Option.map_some, advance]

end Cursor

namespace Usage

def Token.leave? (c : Cursor) (token : Token) : Option Cursor :=
  if token.isGreedy then some .clear else c.advance?

theorem Token.leave?_eq (c : Cursor) (token : Token) : token.leave? c = some (token.leave c) := by
  unfold leave? leave
  split
  · rfl
  · exact c.advance?_eq

def takeAll? (pattern : Text) :
    List Token → Cursor → Option (Except Failure (List (Text × Text) × Cursor))
  | [], c => some (.ok ([], c))
  | token :: tokens, c =>
    match token.bound pattern c with
    | .error failure => some (.error failure)
    | .ok b => do
      let d ← token.leave? c
      let r ← takeAll? pattern tokens d
      return (fun more => (b.toList ++ more.1, more.2)) <$> r

theorem takeAll?_eq (pattern : Text) (tokens : List Token) (c : Cursor) :
    takeAll? pattern tokens c = some (takeAll pattern tokens c) := by
  induction tokens generalizing c with
  | nil => rfl
  | cons token tokens ih =>
    rw [takeAll?, takeAll_cons]
    cases token.bound pattern c with
    | error failure => rfl
    | ok b =>
      simp only [Token.leave?_eq, ih]
      rfl

def attempt? (usage : Usage) (items : List Text) (text : Text) :
    Option (Except Failure Matched) := do
  let r ← takeAll? usage.pattern usage.tokens ⟨items, text⟩
  return r >>= fun (bound, c) =>
    if c.text = [] then
      .ok ⟨usage.pattern, bound.map fun (name, text) => ⟨usage.pattern, name, text⟩, c.items,
        c.text⟩
    else .error (.invalidArguments usage.pattern)

theorem attempt?_eq (usage : Usage) (items : List Text) (text : Text) :
    usage.attempt? items text = some (usage.attempt items text) := by
  rw [attempt?, takeAll?_eq]
  rfl

theorem leaveAll_text_suffix (c : Cursor) (tokens : List Token) :
    (leaveAll c tokens).text <:+ c.text := by
  induction tokens generalizing c with
  | nil => exact List.suffix_refl _
  | cons token tokens ih =>
    refine (ih _).trans ?_
    unfold Token.leave
    split
    · exact List.nil_suffix
    · exact c.advance_text_suffix

end Usage

namespace Usages

variable {α : Type}

def findFrom? (failed : Outcome α) (items : List Text) (text : Text) :
    List (Usage × α) → Option (Outcome α)
  | [] => some failed
  | (usage, handler) :: entries => do
    match ← usage.attempt? items text with
    | .ok matched => return .success handler matched
    | .error failure => findFrom? (.failure failure) items text entries

def find? (usages : Usages α) (items : List Text) (text : Text) : Option (Outcome α) :=
  findFrom? .empty items text usages.entries.reverse

theorem findFrom?_eq (failed : Outcome α) (items : List Text) (text : Text)
    (entries : List (Usage × α)) :
    findFrom? failed items text entries = some (findFrom failed items text entries) := by
  induction entries generalizing failed with
  | nil => rfl
  | cons entry entries ih =>
    obtain ⟨usage, handler⟩ := entry
    rw [findFrom?, Usage.attempt?_eq, findFrom]
    cases usage.attempt items text with
    | ok matched => rfl
    | error failure => exact ih _

/-- A search behind so many bytes always stops at a boundary in the text, and what is left is the
text without the fewest characters that have so many bytes, or all bytes there are, and without the
blanks that follow. So a run of tokens comes to its end on all items and every text, whether they
belong together or not, with a cursor at a boundary of the text, and so does the search in any list
of usages. -/
theorem find?_eq_find (usages : Usages α) (items : List Text) (text : Text) :
    (∀ n t, ∃ k, min n (utf8Size t) ≤ utf8Size (t.take k) ∧
      (∀ j < k, utf8Size (t.take j) < min n (utf8Size t)) ∧
      Stops t (min n (utf8Size t)) (utf8Size (t.take k)) ∧ utf8Size (t.take k) ≤ utf8Size t ∧
      Cursor.skip? n t = some (trimStart (t.drop k)) ∧
      Cursor.skip n t = trimStart (t.drop k)) ∧
    (∀ pattern tokens, ∃ r, Usage.takeAll? pattern tokens ⟨items, text⟩ = some r ∧
      ∀ bound c, r = .ok (bound, c) → ∃ pos, behind? pos text = some c.text) ∧
    usages.find? items text = some (usages.find items text) := by
  refine ⟨fun n t => ?_, fun pattern tokens => ?_, findFrom?_eq _ _ _ _⟩
  · have hs := Cursor.stops_charsWith n t
    refine ⟨charsWith n t, min_le_charsWith n t, fun j => lt_of_lt_charsWith, hs, hs.bounds.2, ?_,
      Cursor.skip_eq n t⟩
    rw [Cursor.skip?_eq, Cursor.skip_eq]
  · refine ⟨_, Usage.takeAll?_eq pattern tokens _, fun bound c h => ?_⟩
    rw [exists_behind?_iff, Usage.of_takeAll h]
    exact Usage.leaveAll_text_suffix _ tokens

/-- The item has two bytes, which end inside of the second character of the text, so that this one
goes as a whole, and more bytes than there are take the whole text. -/
theorem find?_eq_find_disagreeing :
    Cursor.skip? 2 "aé b".toList = some ['b'] ∧ Cursor.skip? 9 "aé b".toList = some [] ∧
      (∃ pos, behind? pos "aé b".toList = some ['b']) ∧
      find? ⟨[(⟨"<x> <y...>".toList, [.param ['x'] false false, .param ['y'] false true]⟩, 0)]⟩
        ["xy".toList] "aé b".toList = some (.success 0 ⟨"<x> <y...>".toList,
          [⟨"<x> <y...>".toList, ['x'], "xy".toList⟩, ⟨"<x> <y...>".toList, ['y'], ['b']⟩],
          [], []⟩) := by
  obtain ⟨hskip, hrun, hfind⟩ := find?_eq_find
    ⟨[(⟨"<x> <y...>".toList, [.param ['x'] false false, .param ['y'] false true]⟩, 0)]⟩
    ["xy".toList] "aé b".toList
  refine ⟨?_, ?_, ?_, hfind.trans rfl⟩
  · obtain ⟨k, -, -, -, -, hs, hm⟩ := hskip 2 "aé b".toList
    rw [hs, ← hm]
    decide
  · obtain ⟨k, -, -, -, -, hs, hm⟩ := hskip 9 "aé b".toList
    rw [hs, ← hm]
    decide
  · obtain ⟨r, hr, hc⟩ := hrun "<x>".toList [.param ['x'] false false]
    rw [Usage.takeAll?_eq, Option.some.injEq] at hr
    exact hc [(['x'], "xy".toList)] ⟨[], ['b']⟩ (hr.symm.trans rfl)

end Usages

end ChatCommand
