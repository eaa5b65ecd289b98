import ChatCommand.Console
import ChatCommand.Proofs.Matching.Declared

/-! # Declared commands

A console holds what its configuration declares: each usage of a command is compiled from its
pattern, in order, with the template read from its own reply. It answers a line with its leader, its
commands, the lists at hand and the messages of its current channel, which are all of the guild and
the client that an answer depends on.
-/

namespace ChatCommand

/-- The usage and the template are those of the entry, and every key asks for an argument. -/
structure UsageReply.Compiles (entry : UsageReply) (compiled : Usage × Template) : Prop where
  usage : Usage.ofPattern entry.pattern = .ok compiled.1
  template : Template.ofBody entry.reply = .ok compiled.2
  keys_subset : compiled.2.keys ⊆ compiled.1.keys

def Command.Compiles (command : Command) (compiled : Text × Usages Template) : Prop :=
  compiled.1 = command.name ∧
    List.Forall₂ UsageReply.Compiles command.usages compiled.2.entries

/-- The messages of the first channel with the configured name, if there is one. -/
def Config.currentMessages (config : Config) : List Message :=
  match config.channel, config.guild with
  | some name, some guild =>
    match guild.channelNamed? name with
    | some channel => guild.messages.filter (·.channel = channel.id)
    | none => []
  | _, _ => []

namespace Console

theorem declare_eq_ok_iff {command : Text} {entry : UsageReply} {compiled : Usage × Template} :
    declare command entry = .ok compiled ↔ entry.Compiles compiled := by
  simp only [declare, bind_eq_ok_iff, mapError_eq_ok_iff]
  constructor
  · rintro ⟨usage, hu, template, ht, h⟩
    split at h
    · cases h
    · next hf =>
      obtain rfl := Except.ok.inj h
      exact ⟨hu, ht, fun key hk => by simpa using List.find?_eq_none.mp hf key hk⟩
  · rintro ⟨hu, ht, hk⟩
    refine ⟨_, hu, _, ht, ?_⟩
    have hf : compiled.2.keys.find? (· ∉ compiled.1.keys) = none :=
      List.find?_eq_none.mpr fun key hmem => by simpa using hk hmem
    rw [hf]
    rfl

theorem declareAll_cons_eq_ok_iff {seen : List Text} {command : Command}
    {commands : List Command} {compiled : List (Text × Usages Template)} :
    declareAll seen (command :: commands) = .ok compiled ↔ command.name ∉ seen ∧
      ∃ first more, command.Compiles first ∧
        declareAll (command.name :: seen) commands = .ok more ∧ compiled = first :: more := by
  rw [declareAll, bind_eq_ok_iff]
  simp only [mapM_eq_ok_iff, declare_eq_ok_iff]
  constructor
  · rintro ⟨entries, he, h⟩
    split at h
    · cases h
    · next hs =>
      obtain ⟨more, hm, h⟩ := bind_eq_ok_iff.mp h
      exact ⟨hs, _, more, ⟨rfl, he⟩, hm, (Except.ok.inj h).symm⟩
  · rintro ⟨hs, ⟨name, usages⟩, more, ⟨rfl, he⟩, hm, rfl⟩
    refine ⟨usages.entries, he, ?_⟩
    rw [if_neg hs, hm]
    rfl

/-- Every command is compiled, and its name is new. -/
theorem declareAll_eq_ok_iff {seen : List Text} {commands : List Command}
    {compiled : List (Text × Usages Template)} :
    declareAll seen commands = .ok compiled ↔ List.Forall₂ Command.Compiles commands compiled ∧
      (commands.map Command.name).Nodup ∧ ∀ command ∈ commands, command.name ∉ seen := by
  induction commands generalizing seen compiled with
  | nil =>
    rw [declareAll, List.forall₂_nil_left_iff]
    simp [eq_comm]
  | cons command commands ih =>
    rw [declareAll_cons_eq_ok_iff, List.forall₂_cons_left_iff, List.map_cons, List.nodup_cons,
      List.forall_mem_cons]
    constructor
    · rintro ⟨hs, first, more, hf, hm, rfl⟩
      obtain ⟨hm, hn, hfresh⟩ := ih.mp hm
      refine ⟨⟨first, more, hf, hm, rfl⟩, ⟨?_, hn⟩, hs, fun c hc hmem => ?_⟩
      · intro hmem
        obtain ⟨c, hc, he⟩ := List.mem_map.mp hmem
        exact hfresh c hc (he ▸ List.mem_cons_self)
      · exact hfresh c hc (List.mem_cons_of_mem _ hmem)
    · rintro ⟨⟨first, more, hf, hm, rfl⟩, ⟨hnot, hn⟩, hs, hfresh⟩
      refine ⟨hs, first, more, hf, ih.mpr ⟨hm, hn, fun c hc hmem => ?_⟩, rfl⟩
      rcases List.mem_cons.mp hmem with he | hmem
      · exact hnot (he ▸ List.mem_map_of_mem hc)
      · exact hfresh c hc hmem

theorem ofConfig_eq_ok_iff {config : Config} {console : Console} :
    ofConfig config = .ok console ↔
      currentChannel config.channel config.guild = .ok console.channel ∧
      declareAll [] config.commands = .ok console.commands ∧ console.leader = config.leader ∧
      console.guild = config.guild ∧ console.client = config.client := by
  simp only [ofConfig, bind_eq_ok_iff]
  constructor
  · rintro ⟨channel, hc, commands, hd, h⟩
    obtain rfl := Except.ok.inj h
    exact ⟨hc, hd, rfl, rfl, rfl⟩
  · rintro ⟨hc, hd, hl, hg, hcl⟩
    refine ⟨_, hc, _, hd, ?_⟩
    rw [← hl, ← hg, ← hcl]
    rfl

theorem ofConfig_singleton {entry : UsageReply} {usage : Usage} {template : Template}
    (h : entry.Compiles (usage, template)) {channel : Option Text} {guild : Option Guild}
    {id : Option Id} (hc : currentChannel channel guild = .ok id) (leader name : Text)
    (client : Option Client) :
    ofConfig ⟨leader, channel, guild, client, [⟨name, [entry]⟩]⟩ =
      .ok ⟨leader, id, guild, client, [(name, ⟨[(usage, template)]⟩)]⟩ := by
  refine ofConfig_eq_ok_iff.mpr ⟨hc, declareAll_eq_ok_iff.mpr ⟨?_, by simp, by simp⟩, rfl, rfl, rfl⟩
  exact .cons ⟨rfl, .cons h .nil⟩ .nil

variable {commands : List Command} {compiled : List (Text × Usages Template)}
  {usages : Usages Template}

theorem exists_of_lookup (h : List.Forall₂ Command.Compiles commands compiled) {name : Text}
    (hl : compiled.lookup name = some usages) :
    ∃ command ∈ commands, command.Compiles (name, usages) := by
  induction h with
  | nil => cases hl
  | @cons command entry commands compiled hc _ ih =>
    obtain ⟨key, value⟩ := entry
    rw [List.lookup_cons] at hl
    split at hl
    · next he =>
      obtain rfl := Option.some.inj hl
      exact ⟨command, List.mem_cons_self, eq_of_beq he ▸ hc⟩
    · obtain ⟨command', hmem, hc'⟩ := ih hl
      exact ⟨command', List.mem_cons_of_mem _ hmem, hc'⟩

theorem exists_lookup (h : List.Forall₂ Command.Compiles commands compiled)
    (hn : (commands.map Command.name).Nodup) {command : Command} (hm : command ∈ commands) :
    ∃ usages, compiled.lookup command.name = some usages ∧
      command.Compiles (command.name, usages) := by
  induction h with
  | nil => cases hm
  | @cons first entry commands compiled hc _ ih =>
    obtain ⟨key, value⟩ := entry
    obtain rfl : key = first.name := hc.1
    rw [List.map_cons, List.nodup_cons] at hn
    rw [List.lookup_cons]
    rcases List.mem_cons.mp hm with rfl | hm
    · exact ⟨value, by rw [beq_self_eq_true], hc⟩
    · have hne : command.name ≠ first.name := fun he => hn.1 (he ▸ List.mem_map_of_mem hm)
      rw [beq_false_of_ne hne]
      exact ih hn.2 hm

theorem compiles_iff {command : Command} {name : Text} :
    command.Compiles (name, usages) ↔ name = command.name ∧
      command.usages.mapM (declare command.name) = .ok usages.entries := by
  simp only [Command.Compiles, mapM_eq_ok_iff, declare_eq_ok_iff]

theorem lookup_compiled_eq_some_iff (h : List.Forall₂ Command.Compiles commands compiled)
    (hn : (commands.map Command.name).Nodup) {name : Text} :
    compiled.lookup name = some usages ↔ ∃ command ∈ commands, command.Compiles (name, usages) := by
  constructor
  · exact exists_of_lookup h
  · rintro ⟨command, hm, hc⟩
    obtain ⟨⟨others⟩, hl, hc'⟩ := exists_lookup h hn hm
    obtain ⟨rfl, he⟩ := compiles_iff.mp hc
    obtain ⟨-, he'⟩ := compiles_iff.mp hc'
    obtain rfl : others = usages.entries := Except.ok.inj (he'.symm.trans he)
    exact hl

theorem invoked?_eq_some_iff {console : Console} {line : Text} {inv : Invocation} :
    console.invoked? line = some (inv, usages) ↔ ∃ rest,
      Text.after? console.leader (Text.trim line) = some rest ∧
      Invocation.ofLine? rest = some inv ∧ console.commands.lookup inv.name = some usages := by
  simp only [invoked?, Option.bind_eq_bind, Option.bind_eq_some_iff]
  constructor
  · rintro ⟨rest, hr, inv', hi, usages', hu, h⟩
    obtain ⟨rfl, rfl⟩ := Prod.mk.inj (Option.some.inj h)
    exact ⟨rest, hr, hi, hu⟩
  · rintro ⟨rest, hr, hi, hu⟩
    exact ⟨rest, hr, inv, hi, usages, hu, rfl⟩

theorem exists_find_of_singleton {console : Console} {usage : Usage}
    {template : Template} {name line rest : Text} {inv : Invocation} {m : Matched}
    (hc : console.commands = [(name, ⟨[(usage, template)]⟩)])
    (hr : Text.after? console.leader (Text.trim line) = some rest)
    (hi : Invocation.ofLine? rest = some inv) (hn : inv.name = name)
    (hm : usage.attempt inv.items inv.text = .ok m) :
    ∃ usages, console.invoked? line = some (inv, usages) ∧
      usages.find inv.items inv.text = .success template m := by
  refine ⟨⟨[(usage, template)]⟩, invoked?_eq_some_iff.mpr ⟨rest, hr, hi, ?_⟩,
    Usages.find_singleton_eq_success_iff.mpr ⟨hm, rfl⟩⟩
  rw [hc, hn, List.lookup_cons_self]

section Answers

variable {config : Config} {console other : Console} {line : Text}

theorem directories_eq (h : ofConfig config = .ok console) :
    console.directories = .of config.guild config.client := by
  obtain ⟨-, -, -, hg, hc⟩ := ofConfig_eq_ok_iff.mp h
  rw [directories, hg, hc]

theorem messages_eq (h : ofConfig config = .ok console) :
    console.messages = config.channel.map fun _ => config.currentMessages := by
  obtain ⟨hc, -, -, hg, -⟩ := ofConfig_eq_ok_iff.mp h
  rw [messages, hg, Config.currentMessages]
  unfold currentChannel at hc
  split at hc
  · next hn => simp [← Except.ok.inj hc, hn]
  · cases hc
  · next name guild hn hg' =>
    split at hc
    · next channel hch => simp [← Except.ok.inj hc, hn, hg', hch, Guild.messagesIn]
    · cases hc

/-- Consoles that differ only in how the commands are kept answer alike. -/
theorem handle_congr_lookup (hl : console.leader = other.leader)
    (hc : ∀ name, console.commands.lookup name = other.commands.lookup name)
    (hd : console.directories = other.directories) (hm : console.messages = other.messages) :
    console.handle line = other.handle line := by
  have hi : console.invoked? line = other.invoked? line := by
    simp only [invoked?, hl, hc]
  have hu : ∀ command failure,
      console.usageReminder command failure = other.usageReminder command failure := by
    intro command failure
    unfold usageReminder
    rw [hl]
  unfold handle
  rw [hi, hd, hm]
  simp only [hu]

theorem handle_congr (hl : console.leader = other.leader) (hc : console.commands = other.commands)
    (hd : console.directories = other.directories) (hm : console.messages = other.messages) :
    console.handle line = other.handle line :=
  handle_congr_lookup hl (fun name => congrArg (List.lookup name) hc) hd hm

theorem handle_of_render {inv : Invocation} {usages : Usages Template} {template : Template}
    {m : Matched} {reply : Reply} (hi : console.invoked? line = some (inv, usages))
    (hf : usages.find inv.items inv.text = .success template m)
    (hr : template.render console.directories console.messages m = .ok reply) :
    console.handle line = .ok (some reply.text) := by
  simp only [handle, hi, hf, hr]
  rfl

end Answers

end Console

end ChatCommand
