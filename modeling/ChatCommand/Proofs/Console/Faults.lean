import ChatCommand.Proofs.Console.Declared
import ChatCommand.Proofs.Usage.Compiled

/-! # Faults of a configuration

A configuration is usable if nothing is wrong with it. Otherwise the first of its faults is
reported: that of the channel, then those of each command in turn, of which each usage comes before
the name. Adding a usage that was read reads its pattern once more, which cannot fail any more.
-/

namespace ChatCommand

/-- The faults of the pattern, of the reply, and of the keys that the pattern does not declare. -/
def UsageReply.faults (command : Text) (entry : UsageReply) : List ConsoleError :=
  (match Usage.ofPattern entry.pattern with
    | .error e => [.invalidUsage command e]
    | .ok _ => []) ++
  (match Template.ofBody entry.reply with
    | .error e => [.invalidReply command e]
    | .ok _ => []) ++
  match Usage.ofPattern entry.pattern, Template.ofBody entry.reply with
    | .ok usage, .ok template =>
      (template.keys.filter (· ∉ usage.keys)).map (.undeclaredKey command · entry.pattern)
    | _, _ => []

def Command.faults (taken : List Text) (command : Command) : List ConsoleError :=
  command.usages.flatMap (UsageReply.faults command.name) ++
    if command.name ∈ taken then [.repeatedCommand command.name] else []

namespace Config

variable (config : Config)

/-- The configured name, hash signs in front of it aside, must be that of a channel. -/
def channelFaults : List ConsoleError :=
  match config.channel, config.guild with
  | none, _ => []
  | some name, none => [.channelWithoutGuild name]
  | some name, some guild =>
    if name.dropWhile (· = '#') ∈ guild.channels.map Channel.name then []
    else [.unknownChannel name]

/-- All faults, in the order in which they are looked for. -/
def faults : List ConsoleError :=
  config.channelFaults ++ (config.commands.mapIdx fun i command =>
    command.faults ((config.commands.take i).map Command.name)).flatten

structure Consistent : Prop where
  channel : ∀ name, config.channel = some name → ∃ guild, config.guild = some guild ∧
    ∃ channel ∈ guild.channels, channel.name = name.dropWhile (· = '#')
  usages : ∀ command ∈ config.commands, ∀ entry ∈ command.usages, ∃ usage template,
    Usage.ofPattern entry.pattern = .ok usage ∧ Template.ofBody entry.reply = .ok template ∧
      ∀ key ∈ template.keys, key ∈ usage.keys
  names : (config.commands.map Command.name).Nodup

end Config

namespace Console

theorem currentChannel_eq_error_iff {config : Config} {e : ConsoleError} :
    currentChannel config.channel config.guild = .error e ↔
      config.channelFaults.head? = some e := by
  unfold Config.channelFaults
  cases hn : config.channel with
  | none => simp [currentChannel]
  | some name =>
    cases hg : config.guild with
    | none => simp [currentChannel]
    | some guild =>
      have hf : (∃ channel, guild.channelNamed? name = some channel) ↔
          name.dropWhile (· = '#') ∈ guild.channels.map Channel.name := by
        simp [Guild.channelNamed?, ← Option.isSome_iff_exists]
      rw [currentChannel]
      cases hc : guild.channelNamed? name with
      | some channel => simp [← hf, hc]
      | none => simp [← hf, hc]

theorem exists_currentChannel_iff {config : Config} :
    (∃ id, currentChannel config.channel config.guild = .ok id) ↔
      ∀ name, config.channel = some name → ∃ guild, config.guild = some guild ∧
        ∃ channel ∈ guild.channels, channel.name = name.dropWhile (· = '#') := by
  simp only [exists_eq_ok_iff, ne_eq, currentChannel_eq_error_iff,
    ← Option.eq_none_iff_forall_ne_some, List.head?_eq_none_iff]
  unfold Config.channelFaults
  cases config.channel with
  | none => simp
  | some name =>
    cases config.guild with
    | none => simp
    | some guild => simp

theorem declare_eq_error_iff {command : Text} {entry : UsageReply} {e : ConsoleError} :
    declare command entry = .error e ↔ (entry.faults command).head? = some e := by
  unfold declare UsageReply.faults
  cases hu : Usage.ofPattern entry.pattern with
  | error e' => simp [Except.mapError, bind, Except.bind]
  | ok usage =>
    obtain ⟨-, hp⟩ := Usage.scan_of_ofPattern hu
    cases ht : Template.ofBody entry.reply with
    | error e' => simp [Except.mapError, bind, Except.bind]
    | ok template =>
      simp only [Except.mapError, ok_bind, List.nil_append, List.head?_map, List.head?_filter, hp]
      cases template.keys.find? (· ∉ usage.keys) with
      | some key => simp
      | none => simp [pure, Except.pure]

theorem mapM_declare_eq_error_iff {command : Command} {e : ConsoleError} :
    command.usages.mapM (declare command.name) = .error e ↔
      (command.usages.flatMap (UsageReply.faults command.name)).head? = some e :=
  mapM_eq_error_iff_head? fun _ _ => declare_eq_error_iff

/-- Reads an entry and adds its usage, for which the pattern is read once more. -/
def addEntry (command : Text) (usages : Usages Template) (entry : UsageReply) :
    Except (ConsoleError ⊕ Usage.PatternError) (Usages Template) := do
  let (_, template) ← (declare command entry).mapError .inl
  (usages.add entry.pattern template).mapError .inr

theorem addEntry_eq (command : Text) (usages : Usages Template) (entry : UsageReply) :
    addEntry command usages entry =
      ((fun compiled => ⟨usages.entries ++ [compiled]⟩) <$> declare command entry).mapError
        .inl := by
  unfold addEntry
  cases hd : declare command entry with
  | error e => rfl
  | ok compiled =>
    have hu := (declare_eq_ok_iff.mp hd).usage
    have ha : usages.add entry.pattern compiled.2 = .ok ⟨usages.entries ++ [compiled]⟩ :=
      Usages.add_eq_ok_iff.mpr ⟨compiled.1, hu, rfl⟩
    simp [Except.mapError, ha]

theorem foldlM_addEntry_eq (command : Text) (usages : Usages Template)
    (entries : List UsageReply) : entries.foldlM (addEntry command) usages =
      ((fun more => ⟨usages.entries ++ more⟩) <$>
        entries.mapM (declare command)).mapError .inl := by
  induction entries generalizing usages with
  | nil => simp [Except.mapError, pure, Except.pure]
  | cons entry entries ih =>
    rw [List.foldlM_cons, List.mapM_cons, addEntry_eq]
    cases declare command entry with
    | error e => rfl
    | ok compiled =>
      simp only [Except.map_ok, Except.mapError, ok_bind, ih]
      cases entries.mapM (declare command) with
      | error e => rfl
      | ok more => simp [pure, Except.pure]

theorem declareAll_cons_eq_error_iff {seen : List Text} {command : Command}
    {commands : List Command} {e : ConsoleError} :
    declareAll seen (command :: commands) = .error e ↔
      (command.faults seen).head? = some e ∨ command.faults seen = [] ∧
        declareAll (command.name :: seen) commands = .error e := by
  rw [declareAll, bind_eq_error_iff, mapM_declare_eq_error_iff, Command.faults]
  -- the name is looked at only after all usages were read
  cases hf : command.usages.flatMap (UsageReply.faults command.name) with
  | cons e' es =>
    have hm : command.usages.mapM (declare command.name) = .error e' :=
      mapM_declare_eq_error_iff.mpr (by rw [hf, List.head?_cons])
    simp [hm]
  | nil =>
    have hm : ∃ entries, command.usages.mapM (declare command.name) = .ok entries := by
      simp [exists_eq_ok_iff, mapM_declare_eq_error_iff, hf]
    obtain ⟨entries, hm⟩ := hm
    by_cases hs : command.name ∈ seen
    · simp [hm, hs]
    · simp [hm, hs, map_eq_error_iff]

theorem Command.faults_congr {command : Command} {taken taken' : List Text}
    (h : ∀ name, name ∈ taken ↔ name ∈ taken') : command.faults taken = command.faults taken' := by
  simp only [Command.faults, h]

theorem declareAll_eq_error_iff {seen : List Text} {commands : List Command} {e : ConsoleError} :
    declareAll seen commands = .error e ↔ ((commands.mapIdx fun i command =>
      command.faults (seen ++ (commands.take i).map Command.name)).flatten).head? = some e := by
  induction commands generalizing seen with
  | nil => simp [declareAll]
  | cons command commands ih =>
    have hc : ∀ (i : Nat) (other : Command),
        other.faults (command.name :: seen ++ (commands.take i).map Command.name) =
          other.faults (seen ++ ((command :: commands).take (i + 1)).map Command.name) := by
      intro i other
      apply Command.faults_congr
      intro name
      simp [or_left_comm]
    rw [declareAll_cons_eq_error_iff, ih, List.mapIdx_cons, List.flatten_cons, List.head?_append]
    simp only [hc, List.take_zero, List.map_nil, List.append_nil]
    cases command.faults seen with
    | nil => simp
    | cons e' es => simp

theorem exists_compiles_iff {command : Command} :
    (∃ compiled, command.Compiles compiled) ↔ ∀ entry ∈ command.usages, ∃ usage template,
      Usage.ofPattern entry.pattern = .ok usage ∧ Template.ofBody entry.reply = .ok template ∧
        ∀ key ∈ template.keys, key ∈ usage.keys := by
  have he : ∀ entry : UsageReply, (∃ compiled, entry.Compiles compiled) ↔ ∃ usage template,
      Usage.ofPattern entry.pattern = .ok usage ∧ Template.ofBody entry.reply = .ok template ∧
        ∀ key ∈ template.keys, key ∈ usage.keys := by
    intro entry
    constructor
    · rintro ⟨⟨usage, template⟩, hu, ht, hk⟩
      exact ⟨usage, template, hu, ht, fun _ => (hk ·)⟩
    · rintro ⟨usage, template, hu, ht, hk⟩
      exact ⟨(usage, template), hu, ht, fun _ => hk _⟩
  simp only [← he, ← exists_forall₂_iff]
  constructor
  · rintro ⟨⟨_, usages⟩, -, h⟩
    exact ⟨usages.entries, h⟩
  · rintro ⟨entries, h⟩
    exact ⟨(command.name, ⟨entries⟩), rfl, h⟩

variable {config : Config} {e : ConsoleError}

theorem ofConfig_eq_error_iff : ofConfig config = .error e ↔ config.faults.head? = some e := by
  rw [ofConfig, bind_eq_error_iff, currentChannel_eq_error_iff, Config.faults]
  cases hf : config.channelFaults with
  | cons e' es =>
    have hc : currentChannel config.channel config.guild = .error e' :=
      currentChannel_eq_error_iff.mpr (by rw [hf, List.head?_cons])
    simp [hc]
  | nil =>
    have hc : ∃ id, currentChannel config.channel config.guild = .ok id := by
      simp [exists_eq_ok_iff, currentChannel_eq_error_iff, hf]
    obtain ⟨id, hc⟩ := hc
    simp [hc, bind_eq_error_iff, declareAll_eq_error_iff, pure, Except.pure]

theorem exists_ofConfig_iff : (∃ console, ofConfig config = .ok console) ↔ config.Consistent := by
  have hd : (∃ compiled, declareAll [] config.commands = .ok compiled) ↔
      (∀ command ∈ config.commands, ∃ compiled, command.Compiles compiled) ∧
        (config.commands.map Command.name).Nodup := by
    simp only [declareAll_eq_ok_iff, exists_and_right, exists_forall₂_iff]
    simp
  simp only [exists_compiles_iff] at hd
  constructor
  · rintro ⟨console, h⟩
    obtain ⟨hc, ha, -⟩ := ofConfig_eq_ok_iff.mp h
    obtain ⟨hu, hn⟩ := hd.mp ⟨_, ha⟩
    exact ⟨exists_currentChannel_iff.mp ⟨_, hc⟩, hu, hn⟩
  · rintro ⟨hc, hu, hn⟩
    obtain ⟨id, hc⟩ := exists_currentChannel_iff.mpr hc
    obtain ⟨commands, ha⟩ := hd.mpr ⟨hu, hn⟩
    exact ⟨⟨config.leader, id, config.guild, config.client, commands⟩,
      ofConfig_eq_ok_iff.mpr ⟨hc, ha, rfl, rfl, rfl⟩⟩

/-- A configuration is accepted exactly if nothing is wrong with it, and refused with the first of
its faults otherwise. Then each command has all its usages in the order of their declaration, each
with its own reply, and adding them one by one cannot fail where a pattern is read again. -/
theorem ofConfig_refuses_first_fault (config : Config) :
    ((∃ console, ofConfig config = .ok console) ↔ config.Consistent) ∧
    (∀ e, ofConfig config = .error e ↔ config.faults.head? = some e) ∧
    (∀ console, ofConfig config = .ok console → ∀ command ∈ config.commands, ∃ usages,
      console.commands.lookup command.name = some usages ∧
      List.Forall₂ UsageReply.Compiles command.usages usages.entries ∧
      command.usages.foldlM (addEntry command.name) .empty = .ok usages) ∧
    ∀ command ∈ config.commands, ∀ e,
      command.usages.foldlM (addEntry command.name) .empty ≠ .error (.inr e) := by
  refine ⟨exists_ofConfig_iff, fun e => ofConfig_eq_error_iff, ?_, ?_⟩
  · intro console h command hm
    obtain ⟨-, hd, -⟩ := ofConfig_eq_ok_iff.mp h
    obtain ⟨hcs, hn, -⟩ := declareAll_eq_ok_iff.mp hd
    obtain ⟨usages, hl, -, hes⟩ := exists_lookup hcs hn hm
    have he : command.usages.mapM (declare command.name) = .ok usages.entries := by
      simpa only [mapM_eq_ok_iff, declare_eq_ok_iff] using hes
    refine ⟨usages, hl, hes, ?_⟩
    rw [foldlM_addEntry_eq, he]
    rfl
  · intro command _ e h
    rw [foldlM_addEntry_eq, mapError_eq_error_iff] at h
    obtain ⟨e', -, he⟩ := h
    cases he

/-- An undeclared key is reported although the next command repeats the name and its pattern cannot
be read. Without these faults both usages of the command are there. -/
theorem ofConfig_refuses_first_fault_key :
    ofConfig ⟨['!'], none, none, none,
        [⟨"ban".toList, [⟨"<who>".toList, "${who} ${why}".toList⟩]⟩,
          ⟨"ban".toList, [⟨"<x".toList, "ok".toList⟩]⟩]⟩ =
      .error (.undeclaredKey "ban".toList "why".toList "<who>".toList) ∧
    ∃ console usages, ofConfig ⟨['!'], none, none, none,
        [⟨"ban".toList, [⟨"<who>".toList, "${who}".toList⟩, ⟨[], "whom?".toList⟩]⟩]⟩ =
          .ok console ∧
      console.commands.lookup "ban".toList = some usages ∧
      List.Forall₂ UsageReply.Compiles
        [⟨"<who>".toList, "${who}".toList⟩, ⟨[], "whom?".toList⟩] usages.entries := by
  constructor
  · exact ((ofConfig_refuses_first_fault _).2.1 _).mpr (by decide +kernel)
  · let config : Config := ⟨['!'], none, none, none,
      [⟨"ban".toList, [⟨"<who>".toList, "${who}".toList⟩, ⟨[], "whom?".toList⟩]⟩]⟩
    have hf : config.faults = [] := by decide +kernel
    obtain ⟨-, herror, hok, -⟩ := ofConfig_refuses_first_fault config
    obtain ⟨console, hc⟩ : ∃ console, ofConfig config = .ok console := by
      refine exists_eq_ok_iff.mpr fun e h => ?_
      have := (herror e).mp h
      simp [hf] at this
    obtain ⟨usages, hl, hu, -⟩ := hok console hc _ List.mem_cons_self
    exact ⟨console, usages, hc, hl, hu⟩

end Console

end ChatCommand
