import ChatCommand.Proofs.Console.Declared
import ChatCommand.Proofs.Console.Faults

/-! # The order of commands

Commands are found by their names, no two of which are the same. So whether a configuration is
accepted does not depend on the order of its commands, and neither does any answer of its console.
-/

namespace ChatCommand

variable {config : Config} {commands : List Command}

theorem Config.consistent_iff_of_perm (h : config.commands.Perm commands) :
    config.Consistent ↔ { config with commands }.Consistent := by
  have hm : ∀ command, command ∈ config.commands ↔ command ∈ commands := fun _ => h.mem_iff
  have hn : (config.commands.map Command.name).Nodup ↔ (commands.map Command.name).Nodup :=
    (h.map Command.name).nodup_iff
  constructor
  · rintro ⟨hc, hu, hd⟩
    exact ⟨hc, fun command hcommand => hu command ((hm command).mpr hcommand), hn.mp hd⟩
  · rintro ⟨hc, hu, hd⟩
    exact ⟨hc, fun command hcommand => hu command ((hm command).mp hcommand), hn.mpr hd⟩

namespace Console

theorem lookup_eq_of_perm (h : config.commands.Perm commands) {console other : Console}
    (hc : ofConfig config = .ok console) (ho : ofConfig { config with commands } = .ok other)
    (name : Text) : console.commands.lookup name = other.commands.lookup name := by
  obtain ⟨-, hd, -⟩ := ofConfig_eq_ok_iff.mp hc
  obtain ⟨-, hd', -⟩ := ofConfig_eq_ok_iff.mp ho
  obtain ⟨hcs, hn, -⟩ := declareAll_eq_ok_iff.mp hd
  obtain ⟨hcs', hn', -⟩ := declareAll_eq_ok_iff.mp hd'
  ext usages
  rw [lookup_compiled_eq_some_iff hcs hn, lookup_compiled_eq_some_iff hcs' hn']
  simp only [h.mem_iff]

/-- A configuration with its commands in another order is accepted if the configuration is, and
then its console answers every line alike. -/
theorem handle_eq_of_perm (h : config.commands.Perm commands) :
    ((∃ console, ofConfig config = .ok console) ↔
      ∃ other, ofConfig { config with commands } = .ok other) ∧
    ∀ console other, ofConfig config = .ok console →
      ofConfig { config with commands } = .ok other →
      ∀ line, console.handle line = other.handle line := by
  constructor
  · rw [exists_ofConfig_iff, exists_ofConfig_iff]
    exact Config.consistent_iff_of_perm h
  · intro console other hc ho line
    obtain ⟨-, -, hl, -⟩ := ofConfig_eq_ok_iff.mp hc
    obtain ⟨-, -, hl', -⟩ := ofConfig_eq_ok_iff.mp ho
    apply handle_congr_lookup
    · rw [hl, hl']
    · exact lookup_eq_of_perm h hc ho
    · rw [directories_eq hc, directories_eq ho]
    · rw [messages_eq hc, messages_eq ho]
      rfl

theorem handle_eq_of_perm_swapped :
    let ping : Command := ⟨"ping".toList, [⟨[], "pong".toList⟩]⟩
    let echo : Command := ⟨"echo".toList, [⟨"<x...>".toList, "${x}".toList⟩]⟩
    let config : Config := ⟨['!'], none, none, none, [ping, echo]⟩
    [ping, echo].Perm [echo, ping] ∧ ∃ console other, ofConfig config = .ok console ∧
      ofConfig { config with commands := [echo, ping] } = .ok other ∧
      ∀ line, console.handle line = other.handle line := by
  intro ping echo config
  have hf : config.faults = [] := by decide +kernel
  have hp : config.commands.Perm [echo, ping] := .swap _ _ _
  obtain ⟨hiff, hsame⟩ := handle_eq_of_perm hp
  have hc : ∃ console, ofConfig config = .ok console := by
    rw [exists_eq_ok_iff]
    intro e h
    rw [ofConfig_eq_error_iff, hf] at h
    cases h
  obtain ⟨console, hc⟩ := hc
  obtain ⟨other, ho⟩ := hiff.mp ⟨console, hc⟩
  exact ⟨hp, console, other, hc, ho, hsame console other hc ho⟩

end Console

end ChatCommand
