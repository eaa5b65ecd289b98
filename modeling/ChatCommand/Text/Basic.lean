/-! # Text

A text is the list of its characters. Blank characters are those with the White_Space property, and
the size of a text is its length in UTF-8.
-/

namespace ChatCommand

abbrev Text := List Char

namespace Text

/-- Stated once, so that membership in a list of texts is decided alike in all modules. -/
instance : LawfulBEq Text := List.instLawfulBEq

/-- The number of bytes of the text in UTF-8. -/
def utf8Size (t : Text) : Nat := t.foldr (fun c n => c.utf8Size + n) 0

@[simp] theorem utf8Size_nil : utf8Size [] = 0 := rfl

@[simp] theorem utf8Size_cons (c : Char) (t : Text) :
    utf8Size (c :: t) = c.utf8Size + utf8Size t := rfl

@[simp] theorem utf8Size_append (s t : Text) : utf8Size (s ++ t) = utf8Size s + utf8Size t := by
  induction s with
  | nil => simp
  | cons c s ih => simp [ih, Nat.add_assoc]

theorem utf8Size_eq_zero_iff {t : Text} : utf8Size t = 0 ↔ t = [] := by
  cases t with
  | nil => simp
  | cons c t => simp [Nat.ne_of_gt c.utf8Size_pos]

/-- The first `n` bytes of the text, if they end where a character ends. -/
def takeBytes? : Nat → Text → Option Text
  | 0, _ => some []
  | _ + 1, [] => none
  | n + 1, c :: t =>
    if c.utf8Size ≤ n + 1 then (takeBytes? (n + 1 - c.utf8Size) t).map (c :: ·) else none

theorem takeBytes?_eq_some_iff {n : Nat} {t s : Text} :
    takeBytes? n t = some s ↔ s <+: t ∧ utf8Size s = n := by
  fun_induction takeBytes? n t generalizing s with
  | case1 t =>
    simp only [Option.some.injEq, utf8Size_eq_zero_iff]
    exact ⟨fun h => ⟨h ▸ List.nil_prefix, h.symm⟩, fun h => h.2.symm⟩
  | case2 n =>
    simp only [reduceCtorEq, false_iff]
    rintro ⟨h, hn⟩
    simp [List.prefix_nil.mp h] at hn
  | case3 n c t hc ih =>
    simp only [Option.map_eq_some_iff, ih]
    constructor
    · rintro ⟨r, ⟨hr, hn⟩, rfl⟩
      exact ⟨List.cons_prefix_cons.mpr ⟨rfl, hr⟩, by simp; omega⟩
    · rintro ⟨h, hn⟩
      cases s with
      | nil => simp at hn
      | cons d r =>
        obtain ⟨rfl, hr⟩ := List.cons_prefix_cons.mp h
        exact ⟨r, ⟨hr, by simp at hn; omega⟩, rfl⟩
  | case4 n c t hc =>
    simp only [reduceCtorEq, false_iff]
    rintro ⟨h, hn⟩
    cases s with
    | nil => simp at hn
    | cons d r =>
      obtain ⟨rfl, hr⟩ := List.cons_prefix_cons.mp h
      simp at hn
      omega

/-- Whether the character separates words: the White_Space property. -/
def isBlank (c : Char) : Bool :=
  let n := c.toNat
  (0x9 ≤ n && n ≤ 0xD) || n == 0x20 || n == 0x85 || n == 0xA0 || n == 0x1680 ||
    (0x2000 ≤ n && n ≤ 0x200A) || n == 0x2028 || n == 0x2029 || n == 0x202F || n == 0x205F ||
    n == 0x3000

theorem isBlank_of_isWhitespace {c : Char} (h : c.isWhitespace = true) : isBlank c = true := by
  simp only [Char.isWhitespace, Bool.or_eq_true, decide_eq_true_eq] at h
  rcases h with ((rfl | rfl) | rfl) | rfl <;> rfl

def trimStart (t : Text) : Text := t.dropWhile isBlank

def trimEnd (t : Text) : Text := (t.reverse.dropWhile isBlank).reverse

def trim (t : Text) : Text := trimEnd (trimStart t)

@[simp] theorem trimStart_nil : trimStart [] = [] := rfl

theorem trimStart_suffix (t : Text) : trimStart t <:+ t := List.dropWhile_suffix _

theorem trimEnd_isPrefixOf (t : Text) : trimEnd t <+: t := by
  have h := List.dropWhile_suffix (l := t.reverse) isBlank
  simpa [trimEnd] using List.reverse_prefix.mpr h

/-- What follows `lead` in a text that starts with it. -/
def after? : (lead t : Text) → Option Text
  | [], t => some t
  | _ :: _, [] => none
  | c :: lead, d :: t => if c = d then after? lead t else none

theorem after?_eq_some_iff {lead t rest : Text} :
    after? lead t = some rest ↔ t = lead ++ rest := by
  fun_induction after? lead t with
  | case1 t => simp
  | case2 c lead => simp
  | case3 lead d t ih => simp [ih]
  | case4 c lead d t h => simp [Ne.symm h]

/-- What precedes `trail` in a text that ends with it. -/
def before? (trail t : Text) : Option Text := (after? trail.reverse t.reverse).map List.reverse

theorem before?_eq_some_iff {trail t rest : Text} :
    before? trail t = some rest ↔ t = rest ++ trail := by
  simp only [before?, Option.map_eq_some_iff, after?_eq_some_iff]
  constructor
  · rintro ⟨r, h, rfl⟩
    have := congrArg List.reverse h
    simpa using this
  · rintro rfl
    exact ⟨rest.reverse, by simp, by simp⟩

/-- The parts before and after the first occurrence of a character. -/
def splitOnce? (c : Char) (t : Text) : Option (Text × Text) :=
  match t.dropWhile (· != c) with
  | [] => none
  | _ :: rest => some (t.takeWhile (· != c), rest)

theorem eq_of_splitOnce? {c : Char} {t left right : Text}
    (h : splitOnce? c t = some (left, right)) : t = left ++ c :: right ∧ c ∉ left := by
  unfold splitOnce? at h
  split at h
  · simp at h
  · next d rest hd =>
    have hc : d = c := by
      have hne : t.dropWhile (· != c) ≠ [] := by simp [hd]
      have hh := List.head_dropWhile_not (· != c) hne
      simpa [hd] using hh
    obtain ⟨rfl, rfl⟩ : t.takeWhile (· != c) = left ∧ rest = right := by simpa using h
    constructor
    · rw [← hc, ← hd, hc]; exact List.takeWhile_append_dropWhile.symm
    · intro hm
      have := List.all_takeWhile (p := (· != c)) (l := t)
      simp only [List.all_eq_true] at this
      simpa using this c hm

theorem splitOnce?_append {c : Char} {left : Text} (h : c ∉ left) (right : Text) :
    splitOnce? c (left ++ c :: right) = some (left, right) := by
  have hl : ∀ d ∈ left, (d != c) = true := fun d hd => bne_iff_ne.mpr fun he => h (he ▸ hd)
  simp [splitOnce?, List.takeWhile_append_of_pos hl, List.dropWhile_append_of_pos hl]

theorem splitOnce?_eq_none {c : Char} {t : Text} (h : c ∉ t) : splitOnce? c t = none := by
  cases hs : splitOnce? c t with
  | none => rfl
  | some r =>
    obtain ⟨rfl, -⟩ := eq_of_splitOnce? hs
    exact absurd (List.mem_append_right _ List.mem_cons_self) h

def splitOn (c : Char) : Text → List Text
  | [] => [[]]
  | d :: t =>
    if d = c then [] :: splitOn c t
    else match splitOn c t with
      | [] => [[d]]
      | part :: parts => (d :: part) :: parts

end Text

end ChatCommand
