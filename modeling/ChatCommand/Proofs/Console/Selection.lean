import ChatCommand.Proofs.Console.Declared
import ChatCommand.Proofs.Line.Joining

/-! # Which commands can be invoked

A line invokes the command whose name is its first word behind the leader. The word must not be
quoted, and the leader is looked for where blanks were trimmed. So a command can be invoked at all
exactly if its name is a bare word and the leader does not start with a blank.
-/

namespace ChatCommand

/-- The word comes first in the line, behind blanks and characters that start no word. -/
def Line.FirstWord (line word : Text) : Prop :=
  ∃ w ws, Tokenization line (w :: ws) ∧ w.text = word

theorem Line.exists_ofLine?_iff {line name : Text} :
    (∃ inv, Invocation.ofLine? line = some inv ∧ inv.name = name) ↔
      ¬ IsQuoted name ∧ FirstWord line name := by
  constructor
  · rintro ⟨inv, hi, rfl⟩
    obtain ⟨first, rest, hw, hq, rfl⟩ := ofLine?_eq_some_iff.mp hi
    exact ⟨hq, first, rest, tokenization_iff.mpr hw.symm, rfl⟩
  · rintro ⟨hq, first, rest, ht, rfl⟩
    exact ⟨_, ofLine?_eq_some_iff.mpr ⟨first, rest, (tokenization_iff.mp ht).symm, hq, rfl⟩, rfl⟩

namespace Console

/-- The name that the line invokes is the command's and leads to the usages that it declares. -/
def Selects (console : Console) (line : Text) (command : Command) : Prop :=
  ∃ inv usages, console.invoked? line = some (inv, usages) ∧ command.Compiles (inv.name, usages)

variable {config : Config} {console : Console} {command : Command} {line : Text}

theorem selects_iff (h : ofConfig config = .ok console) (hm : command ∈ config.commands) :
    console.Selects line command ↔ ∃ rest, Text.trim line = config.leader ++ rest ∧
      ∃ inv, Invocation.ofLine? rest = some inv ∧ inv.name = command.name := by
  obtain ⟨-, hd, hl, -⟩ := ofConfig_eq_ok_iff.mp h
  obtain ⟨hcs, hn, -⟩ := declareAll_eq_ok_iff.mp hd
  unfold Selects
  simp only [invoked?_eq_some_iff, Text.after?_eq_some_iff, hl]
  constructor
  · rintro ⟨inv, usages, ⟨rest, hr, hi, -⟩, hname, -⟩
    exact ⟨rest, hr, inv, hi, hname⟩
  · rintro ⟨rest, hr, inv, hi, hname⟩
    obtain ⟨usages, hu, hc⟩ := exists_lookup hcs hn hm
    rw [← hname] at hu hc
    exact ⟨inv, usages, ⟨rest, hr, hi, hu⟩, hc⟩

theorem isBlank_of_leads {leader rest : Text} (h : Text.trim line = leader ++ rest) :
    ∀ c ∈ leader.head?, Text.isBlank c = false := by
  intro c hc
  obtain ⟨more, rfl⟩ := List.head?_eq_some_iff.mp hc
  rw [List.cons_append] at h
  obtain ⟨⟨d, r, hd, hb⟩, -⟩ := Text.tight_trim (h ▸ List.cons_ne_nil _ _)
  obtain ⟨rfl, -⟩ := List.cons.inj (h.symm.trans hd)
  exact hb

theorem selects_leader_append_name (h : ofConfig config = .ok console)
    (hm : command ∈ config.commands) (hn : Line.IsBareWord command.name)
    (hl : ∀ c ∈ config.leader.head?, Text.isBlank c = false) :
    console.Selects (config.leader ++ command.name) command := by
  have ht : command.name.Tight :=
    Text.tight_of_forall hn.ne_nil fun c hc => Line.isBlank_of_isBare (hn.bare c hc)
  have hi := Line.ofLine?_bare_append (t := []) hn nofun
  rw [List.append_nil] at hi
  exact (selects_iff h hm).mpr ⟨_, (ht.append_of_head? hl).trim_eq, _, hi, rfl⟩

/-- Some line invokes the command exactly if its name is a bare word and the leader does not start
with a blank. Unless its name is quoted, the lines that invoke it are those which, blanks at both
ends aside, start with the leader and go on with the name as their first word. -/
theorem selects_iff_firstWord (h : ofConfig config = .ok console)
    (hm : command ∈ config.commands) :
    ((∃ line, console.Selects line command) ↔
      Line.IsBareWord command.name ∧ ∀ c ∈ config.leader.head?, Text.isBlank c = false) ∧
    (¬ Line.IsQuoted command.name → ∀ line, console.Selects line command ↔
      ∃ rest, Text.trim line = config.leader ++ rest ∧ Line.FirstWord rest command.name) := by
  constructor
  · constructor
    · rintro ⟨line, hs⟩
      obtain ⟨rest, hr, inv, hi, hname⟩ := (selects_iff h hm).mp hs
      exact ⟨hname ▸ (Line.exists_of_ofLine? hi).1, isBlank_of_leads hr⟩
    · rintro ⟨hn, hl⟩
      exact ⟨_, selects_leader_append_name h hm hn hl⟩
  · intro hq line
    simp only [selects_iff h hm, Line.exists_ofLine?_iff, hq, not_false_eq_true, true_and]

/-- A stray backslash in front of the name is skipped, but quotes around it are not. -/
theorem selects_iff_firstWord_stray :
    let command : Command := ⟨"ping".toList, [⟨[], "pong".toList⟩]⟩
    ∃ console, ofConfig ⟨['!'], none, none, none, [command]⟩ = .ok console ∧
      console.Selects " !\\ping \"x".toList command ∧
      ¬ console.Selects "!\"ping\"".toList command := by
  intro command
  have hu : UsageReply.Compiles ⟨[], "pong".toList⟩
      (⟨[], []⟩, ⟨"pong".toList, [.text "pong".toList]⟩) :=
    ⟨by decide +kernel, by decide +kernel, by decide⟩
  have hc : currentChannel none none = .ok none := rfl
  have h := ofConfig_singleton hu hc ['!'] "ping".toList none
  have hn : Line.IsBareWord "ping".toList := ⟨by decide, List.all_eq_true.mp rfl⟩
  obtain ⟨-, hs⟩ := selects_iff_firstWord h List.mem_cons_self
  replace hs := hs hn.not_isQuoted
  refine ⟨_, h, (hs _).mpr ⟨"\\ping \"x".toList, by decide, ?_⟩, fun hq => ?_⟩
  · exact ⟨⟨"ping".toList, " \"x".toList⟩, [⟨['x'], []⟩],
      Line.tokenization_iff.mpr (by decide +kernel), rfl⟩
  · obtain ⟨rest, hr, w, ws, ht, hw⟩ := (hs _).mp hq
    have hq : Text.trim "!\"ping\"".toList = ['!'] ++ "\"ping\"".toList := by decide
    obtain rfl := List.append_cancel_left (hq.symm.trans hr)
    have he : Piece.words (Line.scan "\"ping\"".toList) = [⟨"\"ping\"".toList, []⟩] := by
      decide +kernel
    obtain ⟨rfl, -⟩ := List.cons.inj ((Line.tokenization_iff.mp ht).trans he)
    exact absurd hw (by decide)

end Console

end ChatCommand
