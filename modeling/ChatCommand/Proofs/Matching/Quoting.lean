import Mathlib.Data.List.Forall2
import ChatCommand.Argument.Basic
import ChatCommand.Proofs.Line.Joining
import ChatCommand.Proofs.Matching.Positional

/-! # Passing strings as arguments

Any list of strings can be passed to a command: written as words with spaces in front of them, they
are its items, and a usage with one parameter for each of them binds them in order.
-/

namespace ChatCommand

open Text

namespace Line

theorem closes_escape (s : Text) : Closes (escape s ++ ['"']) := by
  induction s with
  | nil => exact .close
  | cons c s ih =>
    rw [escape]
    split
    · next hc => exact .escape hc ih
    · next hc =>
      obtain ⟨hq, hb⟩ := not_or.mp hc
      exact .plain hq hb ih

theorem isQuoted_quote (s : Text) : IsQuoted (quote s) := ⟨_, rfl, closes_escape s⟩

/-- A string is written as one word: in quotes, or as it is if it is a bare word. -/
inductive Spells : Text → Text → Prop where
  | quoted (s : Text) : Spells (quote s) s
  | bare {s : Text} : IsBareWord s → Spells s s

theorem Spells.unquote_eq {w s : Text} (h : Spells w s) : unquote w = s := by
  cases h with
  | quoted => exact unquote_quote s
  | bare hs =>
    refine if_neg ?_
    rintro ⟨hq, -⟩
    exact hs.head?_ne hq

theorem map_unquote_of_spells {ws ss : List Text} (h : List.Forall₂ Spells ws ss) :
    ws.map unquote = ss := by
  induction h with
  | nil => rfl
  | cons hw _ ih => rw [List.map_cons, hw.unquote_eq, ih]

theorem Spells.kind {w s : Text} (h : Spells w s) : IsBareWord w ∨ IsQuoted w := by
  cases h with
  | quoted => exact .inr (isQuoted_quote s)
  | bare hs => exact .inl hs

theorem kind_of_spells {ws ss : List Text} (h : List.Forall₂ Spells ws ss) :
    ∀ w ∈ ws, IsBareWord w ∨ IsQuoted w := by
  induction h with
  | nil => exact nofun
  | cons hw _ ih => exact List.forall_mem_cons.mpr ⟨hw.kind, ih⟩

def spaced (ws : List Text) : Text := ws.flatMap (' ' :: ·)

theorem spaced_cons (w : Text) (ws : List Text) :
    spaced (w :: ws) = ' ' :: [' '].intercalate (w :: ws) := by
  rw [intercalate_cons]
  rfl

theorem head?_spaced (ws : List Text) : ∀ c ∈ (spaced ws).head?, isBare c = false := by
  intro c hc
  cases ws with
  | nil => simp [spaced] at hc
  | cons w ws =>
    obtain rfl : ' ' = c := by simpa [spaced] using hc
    decide

theorem scan_spaced {ws : List Text} (hk : ∀ w ∈ ws, IsBareWord w ∨ IsQuoted w) :
    Piece.items (scan (spaced ws)) = ws ∧ (Piece.gaps (scan (spaced ws))).AllBlank := by
  cases ws with
  | nil => exact scan_joined hk .nil
  | cons w ws =>
    obtain ⟨hi, hg⟩ := scan_joined hk (joined_intercalate (w :: ws))
    rw [spaced_cons, scan_blank_cons rfl]
    exact ⟨hi, List.forall_mem_cons.mpr ⟨rfl, hg⟩⟩

theorem ofLine?_spaced {name : Text} (hn : IsBareWord name) {ws ss : List Text}
    (h : List.Forall₂ Spells ws ss) :
    Invocation.ofLine? (name ++ spaced ws) = some ⟨name, ws, trimStart (spaced ws)⟩ ∧
      StrayFree (name ++ spaced ws) := by
  obtain ⟨hi, hg⟩ := scan_spaced (kind_of_spells h)
  constructor
  · rw [ofLine?_bare_append hn (head?_spaced ws), hi]
  · exact (strayFree_bare_append_iff hn (head?_spaced ws)).mpr hg

end Line

namespace Usage

theorem positional_of_params {usage : Usage} {names : List Text} {words : List Word}
    (ht : usage.tokens = names.map fun name => .param name false false)
    (hl : names.length = words.length) :
    usage.positional words = .ok ⟨usage.pattern,
      (names.zip (words.map Word.text)).map fun p => ⟨usage.pattern, p.1, p.2⟩, [], []⟩ := by
  have hg : ∀ tokens ⊆ usage.tokens, tokens.any Token.isGreedy = false := by
    intro tokens hsub
    rw [List.any_eq_false]
    intro token hmem
    obtain ⟨name, -, rfl⟩ := List.mem_map.mp (ht ▸ hsub hmem)
    simp [Token.isGreedy]
  have hb : (usage.tokens.mapIdx fun i token =>
      token.boundWord usage.pattern (wordAt usage.tokens words i)) =
      ((names.zip (words.map Word.text)).map some).map .ok := by
    apply List.ext_getElem
    · simp [ht, hl]
    · intro i hi hi'
      have hw : i < words.length := by simpa [ht, hl] using hi
      rw [List.getElem_mapIdx, wordAt, if_neg (by simp [hg _ (List.take_subset _ _)]),
        List.getElem?_eq_getElem hw]
      simp [ht, Token.boundWord]
  have hm : (((names.zip (words.map Word.text)).map some).map .ok).mapM id =
      (.ok ((names.zip (words.map Word.text)).map some) : Except Failure _) := by
    rw [List.mapM_map]
    exact List.mapM_pure.trans (congrArg _ (List.map_id' _))
  rw [positional, hb, hm, ok_bind, if_neg (by simp [ht, hl])]
  simp [List.reduceOption, List.filterMap_map]
  rfl

variable {usage : Usage} {names ws strings : List Text} {name : Text}

/-- Strings written behind a command name are bound as they are by parameters, one for each of
them, whatever they contain. -/
theorem find_eq_success_of_spells {α : Type} (handler : α) (hn : Line.IsBareWord name)
    (hs : List.Forall₂ Line.Spells ws strings)
    (ht : usage.tokens = names.map fun name => .param name false false)
    (hl : names.length = strings.length) :
    ∃ inv m, Invocation.ofLine? (name ++ Line.spaced ws) = some inv ∧ inv.name = name ∧
      (Usages.mk [(usage, handler)]).find inv.items inv.text = .success handler m ∧
      m.args.map (·.name) = names ∧ m.args.map Argument.string = strings ∧
      m.rest = [] ∧ m.remaining = [] := by
  obtain ⟨hi, hf⟩ := Line.ofLine?_spaced hn hs
  have hw : (Line.arguments (name ++ Line.spaced ws)).map Word.text = ws :=
    (Invocation.items_eq hi).symm
  have hlen : names.length = (Line.arguments (name ++ Line.spaced ws)).length := by
    rw [hl, ← hs.length_eq, ← List.length_map (f := Word.text), hw]
  have ho : ∀ options, .literal options ∈ usage.tokens → [] ∉ options := by simp [ht]
  have ha := attempt_eq_positional hi hf ho
  rw [positional_of_params ht hlen, hw] at ha
  have hz : names.length = ws.length := hl.trans hs.length_eq.symm
  refine ⟨_, _, hi, rfl, by rw [Usages.find, List.reverse_singleton, Usages.findFrom, ha], ?_, ?_,
    rfl, rfl⟩
  · rw [List.map_map]
    exact List.map_fst_zip (Nat.le_of_eq hz)
  · calc
      _ = ((names.zip ws).map Prod.snd).map unquote := by rw [List.map_map, List.map_map]; rfl
      _ = ws.map unquote := by rw [List.map_snd_zip (Nat.le_of_eq hz.symm)]
      _ = strings := Line.map_unquote_of_spells hs

theorem find_eq_success_of_spells_escapes :
    ∃ usage inv m, ofPattern "<a> <b> <c>".toList = .ok usage ∧
      Invocation.ofLine? "cmd \"\\\\\\\"\" \"\" é".toList = some inv ∧
      (Usages.mk [(usage, ())]).find inv.items inv.text = .success () m ∧
      m.args.map Argument.string = ["\\\"".toList, [], "é".toList] ∧ m.remaining = [] := by
  let usage : Usage := ⟨"<a> <b> <c>".toList,
    [.param ['a'] false false, .param ['b'] false false, .param ['c'] false false]⟩
  have hu : ofPattern "<a> <b> <c>".toList = .ok usage := by decide +kernel
  have hn : Line.IsBareWord "cmd".toList := ⟨by decide, List.all_eq_true.mp rfl⟩
  have hs : List.Forall₂ Line.Spells [quote "\\\"".toList, quote [], "é".toList]
      ["\\\"".toList, [], "é".toList] :=
    .cons (.quoted _) (.cons (.quoted _) (.cons (.bare ⟨by decide, List.all_eq_true.mp rfl⟩) .nil))
  have ht : usage.tokens = [['a'], ['b'], ['c']].map fun name => .param name false false := rfl
  obtain ⟨inv, m, hi, -, hf, -, ha, -, hr⟩ := find_eq_success_of_spells () hn hs ht rfl
  exact ⟨usage, inv, m, hu, hi, hf, ha, hr⟩

end Usage

end ChatCommand
