import Mathlib.Data.List.ReduceOption
import Mathlib.Logic.Function.Iterate
import ChatCommand.Matching.Attempt
import ChatCommand.Proofs.Fallible

/-! # Runs of a usage

What a token sees depends on how many tokens precede it and on whether one of them is greedy, never
on what they bind. A run therefore splits at every token, and is the sequence of what its tokens
bind, each at its own place.
-/

namespace ChatCommand

open Text

@[simp] theorem Cursor.advance_clear : Cursor.advance .clear = .clear := rfl

theorem Cursor.iterate_advance_items (n : Nat) (c : Cursor) :
    (Cursor.advance^[n] c).items = c.items.drop n := by
  induction n generalizing c with
  | zero => rfl
  | succ n ih =>
    rw [Function.iterate_succ_apply, ih]
    obtain ⟨items, text⟩ := c
    cases items with
    | nil => simp [advance]
    | cons item items => rfl

namespace Usage

namespace Token

/-- Whether the token leaves nothing to later ones. -/
def isGreedy : Token → Bool
  | literal _ => false
  | flag _ => false
  | param _ _ spread => spread
  | ellipsis => true

def leave (c : Cursor) (token : Token) : Cursor :=
  if token.isGreedy then .clear else c.advance

def bound (pattern : Text) (c : Cursor) (token : Token) :
    Except Failure (Option (Text × Text)) :=
  Prod.fst <$> token.take pattern c

@[simp] theorem bound_literal (pattern : Text) (c : Cursor) (options : List Text) :
    (literal options).bound pattern c =
      if lowercase c.item ∈ options then .ok (some (lowercase c.item, lowercase c.item))
      else .error (.unmatchedOption pattern (lowercase c.item)) := by
  simp only [bound, take]
  split <;> rfl

@[simp] theorem bound_flag (pattern : Text) (c : Cursor) (name : Text) :
    (flag name).bound pattern c =
      .ok (some (name, if isFlag name c.item then "true".toList else "false".toList)) := rfl

@[simp] theorem bound_param (pattern : Text) (c : Cursor) (name : Text)
    (optional spread : Bool) :
    (param name optional spread).bound pattern c =
      if (if spread then c.text else c.item) = [] ∧ !optional
      then .error (.unmatchedParameter pattern name)
      else .ok (some (name, if spread then c.text else c.item)) := by
  simp only [bound, take]
  by_cases h : (if spread then c.text else c.item) = [] ∧ !optional
  · rw [if_pos h, if_pos h]
    rfl
  · rw [if_neg h, if_neg h]
    rfl

theorem of_bound_literal {pattern : Text} {c : Cursor} {options : List Text}
    {b : Option (Text × Text)} (h : (literal options).bound pattern c = .ok b) :
    lowercase c.item ∈ options ∧ b = some (lowercase c.item, lowercase c.item) := by
  rw [bound_literal] at h
  split at h
  · next hm => exact ⟨hm, (Except.ok.inj h).symm⟩
  · cases h

theorem of_bound_param {pattern : Text} {c : Cursor} {name : Text} {optional spread : Bool}
    {b : Option (Text × Text)} (h : (param name optional spread).bound pattern c = .ok b) :
    b = some (name, if spread then c.text else c.item) := by
  rw [bound_param] at h
  by_cases hn : (if spread then c.text else c.item) = [] ∧ !optional
  · rw [if_pos hn] at h
    cases h
  · rw [if_neg hn] at h
    exact (Except.ok.inj h).symm

@[simp] theorem bound_ellipsis (pattern : Text) (c : Cursor) :
    ellipsis.bound pattern c = .ok none := rfl

/-- What a token binds does not depend on what it leaves, nor the other way round. -/
theorem take_eq (pattern : Text) (c : Cursor) (token : Token) :
    token.take pattern c = (·, token.leave c) <$> token.bound pattern c := by
  cases token with
  | literal options =>
    rw [bound_literal, take]
    split <;> rfl
  | flag name => rfl
  | param name optional spread =>
    rw [bound_param, take]
    by_cases h : (if spread then c.text else c.item) = [] ∧ !optional
    · rw [if_pos h, if_pos h]
      rfl
    · rw [if_neg h, if_neg h]
      rfl
  | ellipsis => rfl

theorem fst_of_bound {pattern : Text} {c : Cursor} {token : Token} {key : Text}
    {p : Text × Text} (hk : token.key? = some key) (h : token.bound pattern c = .ok (some p)) :
    p.1 = key := by
  cases token with
  | literal options => simp [key?] at hk
  | flag name =>
    obtain rfl := Option.some.inj hk
    rw [← Option.some.inj (Except.ok.inj h)]
  | param name optional spread =>
    obtain rfl := Option.some.inj hk
    rw [Option.some.inj (of_bound_param h)]
  | ellipsis => simp [key?] at hk

theorem exists_of_bound {pattern : Text} {c : Cursor} {token : Token} {b : Option (Text × Text)}
    (h : token.bound pattern c = .ok b) (hg : token ≠ ellipsis) : ∃ p, b = some p := by
  cases token with
  | literal options => exact ⟨_, (of_bound_literal h).2⟩
  | flag name => exact ⟨_, (Except.ok.inj h).symm⟩
  | param name optional spread => exact ⟨_, of_bound_param h⟩
  | ellipsis => exact absurd rfl hg

end Token

def leaveAll (c : Cursor) (tokens : List Token) : Cursor := tokens.foldl Token.leave c

@[simp] theorem leaveAll_nil (c : Cursor) : leaveAll c [] = c := rfl

@[simp] theorem leaveAll_cons (c : Cursor) (token : Token) (tokens : List Token) :
    leaveAll c (token :: tokens) = leaveAll (token.leave c) tokens := rfl

@[simp] theorem leaveAll_append (c : Cursor) (pre post : List Token) :
    leaveAll c (pre ++ post) = leaveAll (leaveAll c pre) post := List.foldl_append

@[simp] theorem leaveAll_clear (tokens : List Token) : leaveAll .clear tokens = .clear := by
  induction tokens with
  | nil => rfl
  | cons token tokens ih => simp [Token.leave, ih]

theorem leaveAll_of_not_greedy {tokens : List Token} (c : Cursor)
    (h : ∀ token ∈ tokens, token.isGreedy = false) :
    leaveAll c tokens = Cursor.advance^[tokens.length] c := by
  induction tokens generalizing c with
  | nil => rfl
  | cons token tokens ih =>
    obtain ⟨ht, hts⟩ := List.forall_mem_cons.mp h
    rw [leaveAll_cons, ih _ hts, Token.leave, ht]
    rfl

theorem leaveAll_of_greedy {tokens : List Token} (c : Cursor)
    (h : ∃ token ∈ tokens, token.isGreedy = true) : leaveAll c tokens = .clear := by
  obtain ⟨token, ht, hg⟩ := h
  obtain ⟨pre, post, rfl⟩ := List.append_of_mem ht
  simp [Token.leave, hg]

/-- Up to the first greedy token a token sees the item at its own place, and later ones see none. -/
theorem item_leaveAll_take (items : List Text) (text : Text) {tokens : List Token} {i : Nat}
    (hi : i ≤ tokens.length) : (leaveAll ⟨items, text⟩ (tokens.take i)).item =
      if (tokens.take i).any Token.isGreedy then [] else items[i]?.getD [] := by
  split
  · next hg =>
    rw [leaveAll_of_greedy _ (List.any_eq_true.mp hg)]
    rfl
  · next hg =>
    rw [leaveAll_of_not_greedy _ (by simpa using hg), List.length_take_of_le hi, Cursor.item,
      Cursor.iterate_advance_items, List.head?_drop]

theorem takeAll_cons (pattern : Text) (c : Cursor) (token : Token) (tokens : List Token) :
    takeAll pattern (token :: tokens) c = token.bound pattern c >>= fun b =>
      (fun r => (b.toList ++ r.1, r.2)) <$> takeAll pattern tokens (token.leave c) := by
  rw [takeAll, Token.take_eq]
  cases token.bound pattern c <;> rfl

theorem of_takeAll_cons {pattern : Text} {token : Token} {tokens : List Token} {c c' : Cursor}
    {bound : List (Text × Text)} (h : takeAll pattern (token :: tokens) c = .ok (bound, c')) :
    ∃ b more, token.bound pattern c = .ok b ∧
      takeAll pattern tokens (token.leave c) = .ok (more, c') ∧ bound = b.toList ++ more := by
  rw [takeAll_cons] at h
  obtain ⟨b, hb, h⟩ := bind_eq_ok_iff.mp h
  obtain ⟨⟨more, d⟩, hr, he⟩ := map_eq_ok_iff.mp h
  obtain ⟨rfl, rfl⟩ := Prod.mk.inj he
  exact ⟨b, more, hb, hr, rfl⟩

/-- A run is the sequence of what the tokens bind, each behind those before it. -/
theorem takeAll_eq (pattern : Text) (tokens : List Token) (c : Cursor) :
    takeAll pattern tokens c = (fun bs => (bs.reduceOption, leaveAll c tokens)) <$>
      (tokens.mapIdx fun i token => token.bound pattern (leaveAll c (tokens.take i))).mapM id := by
  induction tokens generalizing c with
  | nil => rfl
  | cons token tokens ih =>
    rw [takeAll_cons, ih, List.mapIdx_cons, List.mapM_cons]
    simp only [List.take_zero, leaveAll_nil, List.take_succ_cons, leaveAll_cons, id]
    cases token.bound pattern c with
    | error e => rfl
    | ok b =>
      simp only [ok_bind]
      cases (tokens.mapIdx fun i t => t.bound pattern
        (leaveAll (token.leave c) (tokens.take i))).mapM id with
      | error e => rfl
      | ok bs => cases b <;> rfl

theorem of_takeAll {pattern : Text} {tokens : List Token} {c c' : Cursor}
    {bound : List (Text × Text)} (h : takeAll pattern tokens c = .ok (bound, c')) :
    c' = leaveAll c tokens := by
  rw [takeAll_eq] at h
  obtain ⟨bs, -, he⟩ := map_eq_ok_iff.mp h
  exact (Prod.mk.inj he).2.symm

theorem of_takeAll_append {pattern : Text} {pre post : List Token} {c c' : Cursor}
    {bound : List (Text × Text)} (h : takeAll pattern (pre ++ post) c = .ok (bound, c')) :
    ∃ b₁ b₂, takeAll pattern pre c = .ok (b₁, leaveAll c pre) ∧
      takeAll pattern post (leaveAll c pre) = .ok (b₂, c') ∧ bound = b₁ ++ b₂ := by
  induction pre generalizing c bound with
  | nil => exact ⟨[], bound, rfl, h, rfl⟩
  | cons token pre ih =>
    obtain ⟨b, bs, hb, hr, rfl⟩ := of_takeAll_cons h
    obtain ⟨b₁, b₂, h₁, h₂, rfl⟩ := ih hr
    refine ⟨b.toList ++ b₁, b₂, ?_, h₂, by simp⟩
    rw [takeAll_cons, hb, ok_bind, h₁]
    rfl

theorem bound_of_takeAll {pattern : Text} {tokens : List Token} {c c' : Cursor}
    {bound : List (Text × Text)} (h : takeAll pattern tokens c = .ok (bound, c')) {i : Nat}
    {token : Token} (hi : tokens[i]? = some token) :
    ∃ b, token.bound pattern (leaveAll c (tokens.take i)) = .ok b ∧ ∀ p ∈ b, p ∈ bound := by
  obtain ⟨hlt, rfl⟩ := List.getElem?_eq_some_iff.mp hi
  have hs : tokens = tokens.take i ++ tokens[i] :: tokens.drop (i + 1) := by
    rw [← List.drop_eq_getElem_cons hlt, List.take_append_drop]
  rw [hs] at h
  obtain ⟨b₁, b₂, -, h₂, rfl⟩ := of_takeAll_append h
  obtain ⟨b, b₃, hb, -, rfl⟩ := of_takeAll_cons h₂
  refine ⟨b, hb, ?_⟩
  rintro p rfl
  simp

theorem exists_of_mem_takeAll {pattern : Text} {tokens : List Token} {c c' : Cursor}
    {bound : List (Text × Text)} (h : takeAll pattern tokens c = .ok (bound, c'))
    {p : Text × Text} (hp : p ∈ bound) : ∃ (i : Nat) (token : Token), tokens[i]? = some token ∧
      token.bound pattern (leaveAll c (tokens.take i)) = .ok (some p) := by
  induction tokens generalizing c bound with
  | nil =>
    obtain ⟨rfl, -⟩ := Prod.mk.inj (Except.ok.inj h)
    simp at hp
  | cons token tokens ih =>
    obtain ⟨b, bs, hb, hr, rfl⟩ := of_takeAll_cons h
    rcases List.mem_append.mp hp with hp | hp
    · rw [Option.mem_toList] at hp
      exact ⟨0, token, rfl, hp ▸ hb⟩
    · obtain ⟨i, t, hi, ht⟩ := ih hr hp
      exact ⟨i + 1, t, hi, ht⟩

theorem length_of_takeAll {pattern : Text} {tokens : List Token} {c c' : Cursor}
    {bound : List (Text × Text)} (h : takeAll pattern tokens c = .ok (bound, c'))
    (hg : ∀ token ∈ tokens, token.isGreedy = false) : bound.length = tokens.length := by
  induction tokens generalizing c bound with
  | nil =>
    obtain ⟨rfl, -⟩ := Prod.mk.inj (Except.ok.inj h)
    rfl
  | cons token tokens ih =>
    obtain ⟨ht, hts⟩ := List.forall_mem_cons.mp hg
    obtain ⟨b, bs, hb, hr, rfl⟩ := of_takeAll_cons h
    obtain ⟨p, rfl⟩ := Token.exists_of_bound hb (by rintro rfl; cases ht)
    simp [ih hr hts]

variable {usage : Usage} {items : List Text} {text : Text} {m : Matched}

theorem of_attempt (h : usage.attempt items text = .ok m) :
    ∃ bound, takeAll usage.pattern usage.tokens ⟨items, text⟩ =
        .ok (bound, leaveAll ⟨items, text⟩ usage.tokens) ∧
      (leaveAll ⟨items, text⟩ usage.tokens).text = [] ∧
      m = ⟨usage.pattern, bound.map fun p => ⟨usage.pattern, p.1, p.2⟩,
        (leaveAll ⟨items, text⟩ usage.tokens).items, []⟩ := by
  obtain ⟨⟨bound, c⟩, hr, h⟩ := bind_eq_ok_iff.mp h
  obtain rfl := of_takeAll hr
  refine ⟨bound, hr, ?_⟩
  dsimp only at h
  split at h
  · next ht =>
    refine ⟨ht, ?_⟩
    rw [← Except.ok.inj h, ht]
  · cases h

theorem exists_attempt_iff : (∃ m, usage.attempt items text = .ok m) ↔
    (∀ (i : Nat) (token : Token), usage.tokens[i]? = some token →
      ∃ b, token.bound usage.pattern (leaveAll ⟨items, text⟩ (usage.tokens.take i)) = .ok b) ∧
    (leaveAll ⟨items, text⟩ usage.tokens).text = [] := by
  rw [← exists_mapM_mapIdx_eq_ok_iff]
  constructor
  · rintro ⟨m, h⟩
    obtain ⟨bound, hr, ht, -⟩ := of_attempt h
    rw [takeAll_eq] at hr
    obtain ⟨bs, hbs, -⟩ := map_eq_ok_iff.mp hr
    exact ⟨⟨bs, hbs⟩, ht⟩
  · rintro ⟨⟨bs, hbs⟩, ht⟩
    rw [attempt, takeAll_eq, hbs]
    exact ⟨_, if_pos ht⟩

theorem of_attempt_split (h : usage.attempt items text = .ok m) {pre post : List Token}
    {token : Token} (ht : usage.tokens = pre ++ token :: post) :
    ∃ before b after, takeAll usage.pattern pre ⟨items, text⟩ =
        .ok (before, leaveAll ⟨items, text⟩ pre) ∧
      token.bound usage.pattern (leaveAll ⟨items, text⟩ pre) = .ok b ∧
      m.args = (before ++ (b.toList ++ after)).map fun p => ⟨usage.pattern, p.1, p.2⟩ := by
  obtain ⟨bound, hr, -, rfl⟩ := of_attempt h
  rw [ht] at hr
  obtain ⟨before, more, h₁, h₂, rfl⟩ := of_takeAll_append hr
  obtain ⟨b, after, hb, -, rfl⟩ := of_takeAll_cons h₂
  exact ⟨before, b, after, h₁, hb, rfl⟩

end Usage

end ChatCommand
