import ChatCommand.Proofs.Console.Declared
import ChatCommand.Proofs.Matching.Declared
import ChatCommand.Proofs.Matching.Keys
import ChatCommand.Proofs.Template.Filling

/-! # Errors of a console

A line is answered with the reply of the usage that it matches, which was checked against the
pattern of that very usage. So an argument is never missing, and the only errors left are lookups
in something that the configuration does not have.
-/

namespace ChatCommand

open Template

def UsageReply.Accepts (entry : UsageReply) (inv : Invocation) (m : Matched) : Prop :=
  ∃ usage, Usage.ofPattern entry.pattern = .ok usage ∧ usage.attempt inv.items inv.text = .ok m

/-- The line invokes a command with the entry as the last of its usages that accept. -/
structure Config.Dispatches (config : Config) (line : Text) (inv : Invocation) (entry : UsageReply)
    (m : Matched) : Prop where
  invokes : ∃ rest, Text.after? config.leader (Text.trim line) = some rest ∧
    Invocation.ofLine? rest = some inv
  accepts : entry.Accepts inv m
  isLast : ∃ command ∈ config.commands, command.name = inv.name ∧ ∃ before after,
    command.usages = before ++ entry :: after ∧ ∀ other ∈ after, ∀ m', ¬ other.Accepts inv m'

/-- The coercion asks for something that the configuration does not have. -/
inductive Config.Lacks (config : Config) : Coercion → RenderError → Prop where
  | channel : config.guild = none → Lacks config .channel (.missingDirectory .channels)
  | emoji : config.guild = none → Lacks config .emoji (.missingDirectory .emojis)
  | member : config.guild = none → Lacks config .member (.missingDirectory .members)
  | role : config.guild = none → Lacks config .role (.missingDirectory .roles)
  | user : config.client = none → Lacks config .user (.missingDirectory .users)
  | message : config.channel = none → Lacks config .message .noMessages

theorem Config.Lacks.eq_none {config : Config} {coercion : Coercion} {e : RenderError}
    (h : config.Lacks coercion e) :
    config.guild = none ∨ config.client = none ∨ config.channel = none := by
  cases h with
  | user hn => exact .inr (.inl hn)
  | message hn => exact .inr (.inr hn)
  | _ hn => exact .inl hn

theorem UsageReply.Compiles.accepts_iff {entry : UsageReply} {compiled : Usage × Template}
    (h : entry.Compiles compiled) {inv : Invocation} {m : Matched} :
    entry.Accepts inv m ↔ compiled.1.attempt inv.items inv.text = .ok m := by
  constructor
  · rintro ⟨usage, hu, hm⟩
    rwa [Except.ok.inj (h.usage.symm.trans hu)]
  · exact fun hm => ⟨compiled.1, h.usage, hm⟩

namespace Console

variable {config : Config} {console : Console} {line : Text} {inv : Invocation}
  {entry : UsageReply} {template : Template} {m : Matched} {e : RenderError}

theorem messages_eq_none_iff (h : ofConfig config = .ok console) :
    console.messages = none ↔ config.channel = none := by
  rw [messages_eq h, Option.map_eq_none_iff]

theorem refusal?_eq_some_iff (h : ofConfig config = .ok console) {coercion : Coercion} :
    coercion.refusal? console.directories console.messages = some e ↔
      config.Lacks coercion e := by
  obtain ⟨-, -, -, hg, hc⟩ := ofConfig_eq_ok_iff.mp h
  have hguild : ∀ {α : Type} {f : Guild → α}, console.guild.map f = none ↔ config.guild = none :=
    hg ▸ Option.map_eq_none_iff
  have hclient : ∀ {α : Type} {f : Client → α},
      console.client.map f = none ↔ config.client = none :=
    hc ▸ Option.map_eq_none_iff
  cases coercion with
  | channel | emoji | member | user | role | message =>
    simp only [Coercion.refusal?, directories, Directories.of, hguild, hclient,
      messages_eq_none_iff h, Option.ite_none_right_eq_some, Option.some.injEq]
    constructor
    · rintro ⟨hn, rfl⟩
      constructor
      exact hn
    · intro hl
      cases hl with
      | _ hn => exact ⟨hn, rfl⟩
  | _ =>
    constructor
    · intro hr
      cases hr
    · intro hl
      cases hl

theorem dispatches_iff (h : ofConfig config = .ok console) :
    (∃ usages, console.invoked? line = some (inv, usages) ∧
      usages.find inv.items inv.text = .success template m) ↔
    ∃ entry, config.Dispatches line inv entry m ∧ Template.ofBody entry.reply = .ok template := by
  obtain ⟨-, hd, hl, -, -⟩ := ofConfig_eq_ok_iff.mp h
  obtain ⟨hcs, hnodup, -⟩ := declareAll_eq_ok_iff.mp hd
  have hlater : ∀ {after : List UsageReply} {after' : List (Usage × Template)},
      List.Forall₂ UsageReply.Compiles after after' →
      ((∀ other ∈ after, ∀ m', ¬ other.Accepts inv m') ↔
        ∀ compiled ∈ after', ∀ m', compiled.1.attempt inv.items inv.text ≠ .ok m') := fun ha =>
    forall_mem_iff_of_forall₂ ha fun _ _ hc => forall_congr' fun _ => not_congr hc.accepts_iff
  constructor
  · rintro ⟨usages, hi, hf⟩
    obtain ⟨rest, hr, hi, hu⟩ := invoked?_eq_some_iff.mp hi
    obtain ⟨command, hmem, hname, hes⟩ := exists_of_lookup hcs hu
    obtain ⟨before, usage, after, he, hm, ha⟩ := Usages.find_eq_success_iff.mp hf
    obtain ⟨before', entry, after', hsplit, hc, ha'⟩ :=
      exists_of_forall₂_append_cons (List.Forall₂.flip (he ▸ hes))
    refine ⟨entry, ⟨⟨rest, hl ▸ hr, hi⟩, hc.accepts_iff.mpr hm, command, hmem, hname.symm,
      before', after', hsplit, (hlater ha'.flip).mpr ha⟩, hc.template⟩
  · rintro ⟨entry, ⟨⟨rest, hr, hi⟩, hacc, command, hmem, hname, before, after, hsplit, ha⟩, ht⟩
    obtain ⟨usages, hu, -, hes⟩ := exists_lookup hcs hnodup hmem
    obtain ⟨before', ⟨usage, template'⟩, after', he, hc, ha'⟩ :=
      exists_of_forall₂_append_cons (hsplit ▸ hes)
    obtain rfl : template' = template := Except.ok.inj (hc.template.symm.trans ht)
    refine ⟨usages, invoked?_eq_some_iff.mpr ⟨rest, hl.symm ▸ hr, hi, hname ▸ hu⟩, ?_⟩
    exact Usages.find_eq_success_iff.mpr
      ⟨before', usage, after', he, hc.accepts_iff.mp hacc, (hlater ha').mp ha⟩

/-- Every key of a reply has an argument wherever the reply is given. -/
theorem exists_get?_of_dispatches (h : ofConfig config = .ok console)
    (hd : config.Dispatches line inv entry m) (ht : Template.ofBody entry.reply = .ok template)
    {name : Text} {coercion : Coercion} (hk : .key name coercion ∈ template.segments) :
    ∃ arg, m.get? name = some arg := by
  obtain ⟨-, hds, -⟩ := ofConfig_eq_ok_iff.mp h
  obtain ⟨hcs, hnodup, -⟩ := declareAll_eq_ok_iff.mp hds
  obtain ⟨usage, hu, hm⟩ := hd.accepts
  obtain ⟨command, hmem, -, before, after, hsplit, -⟩ := hd.isLast
  obtain ⟨usages, -, -, hes⟩ := exists_lookup hcs hnodup hmem
  obtain ⟨-, ⟨usage', template'⟩, -, -, hc, -⟩ := exists_of_forall₂_append_cons (hsplit ▸ hes)
  obtain rfl : usage' = usage := Except.ok.inj (hc.usage.symm.trans hu)
  obtain rfl : template' = template := Except.ok.inj (hc.template.symm.trans ht)
  have hname : name ∈ template'.keys := List.mem_filterMap.mpr ⟨_, hk, rfl⟩
  exact Usage.exists_get?_of_mem_keys hm (hc.keys_subset hname)

theorem handle_eq_error_iff_fill : console.handle line = .error e ↔
    ∃ inv template m, (∃ usages, console.invoked? line = some (inv, usages) ∧
      usages.find inv.items inv.text = .success template m) ∧
      fill console.directories console.messages m template.segments = .error e := by
  unfold handle
  constructor
  · intro hh
    split at hh
    · cases hh
    · next inv usages hi =>
      split at hh
      · next template m hf =>
        exact ⟨inv, template, m, ⟨usages, hi, hf⟩, render_eq_error_iff.mp (map_eq_error_iff.mp hh)⟩
      · cases hh
      · cases hh
  · rintro ⟨inv, template, m, ⟨usages, hi, hf⟩, he⟩
    simp only [hi, hf]
    exact map_eq_error_iff.mpr (render_eq_error_iff.mpr he)

theorem handle_eq_error_iff (h : ofConfig config = .ok console) :
    console.handle line = .error e ↔ ∃ inv entry m template before name coercion after,
      config.Dispatches line inv entry m ∧ Template.ofBody entry.reply = .ok template ∧
      template.segments = before ++ .key name coercion :: after ∧
      (∀ segment ∈ before, segment.Resolves console.directories console.messages m) ∧
      config.Lacks coercion e := by
  have hmem : ∀ {before after : List Segment} {segment : Segment},
      segment ∈ before ++ segment :: after := List.mem_append_right _ List.mem_cons_self
  rw [handle_eq_error_iff_fill]
  constructor
  · rintro ⟨inv, template, m, hf, he⟩
    obtain ⟨entry, hd, ht⟩ := (dispatches_iff h).mp hf
    obtain ⟨before, segment, after, hs, hb, he⟩ := fill_eq_error_iff.mp he
    cases segment with
    | text t => cases he
    | key name coercion =>
      obtain ⟨arg, ha⟩ := exists_get?_of_dispatches h hd ht (hs ▸ hmem)
      rcases Segment.reply_key_eq_error_iff.mp he with ⟨hn, -⟩ | ⟨-, hr⟩
      · rw [hn] at ha
        cases ha
      · exact ⟨inv, entry, m, template, before, name, coercion, after, hd, ht, hs, hb,
          (refusal?_eq_some_iff h).mp hr⟩
  · rintro ⟨inv, entry, m, template, before, name, coercion, after, hd, ht, hs, hb, hl⟩
    have ha := exists_get?_of_dispatches h hd ht (hs ▸ hmem)
    have he := Segment.reply_key_eq_error_iff.mpr (.inr ⟨ha, (refusal?_eq_some_iff h).mpr hl⟩)
    exact ⟨inv, template, m, (dispatches_iff h).mpr ⟨entry, hd, ht⟩,
      fill_eq_error_iff.mpr ⟨before, _, after, hs, hb, he⟩⟩

theorem exists_lacks (h : ofConfig config = .ok console)
    (he : console.handle line = .error e) : ∃ coercion, config.Lacks coercion e := by
  obtain ⟨_, _, _, _, _, _, coercion, _, -, -, -, -, hl⟩ := (handle_eq_error_iff h).mp he
  exact ⟨coercion, hl⟩

/-- A line fails exactly if it dispatches to a usage whose reply asks for something that the
configuration does not have, behind keys that all resolve. No argument is ever missing, and with a
guild, a client and a channel nothing is lacking. -/
theorem handle_fails_iff_lacks (h : ofConfig config = .ok console) (line : Text) :
    (∀ e, console.handle line = .error e ↔
      ∃ inv entry m template before name coercion after,
        config.Dispatches line inv entry m ∧ Template.ofBody entry.reply = .ok template ∧
        template.segments = before ++ .key name coercion :: after ∧
        (∀ segment ∈ before, segment.Resolves console.directories console.messages m) ∧
        config.Lacks coercion e) ∧
    (∀ usage name, console.handle line ≠ .error (.noArgument usage name)) ∧
    (config.guild.isSome → config.client.isSome → config.channel.isSome →
      ∃ reply, console.handle line = .ok reply) := by
  refine ⟨fun e => handle_eq_error_iff h, fun usage name he => ?_, fun hg hc hch => ?_⟩
  · obtain ⟨coercion, hl⟩ := exists_lacks h he
    cases hl
  · cases hh : console.handle line with
    | ok reply => exact ⟨reply, rfl⟩
    | error e =>
      obtain ⟨coercion, hl⟩ := exists_lacks h hh
      rcases hl.eq_none with hn | hn | hn
      · simp [hn] at hg
      · simp [hn] at hc
      · simp [hn] at hch

theorem handle_fails_iff_lacks_member :
    (∃ config console, config.guild = none ∧ ofConfig config = .ok console ∧
      console.handle "!who museun".toList = .error (.missingDirectory .members)) ∧
    ∃ config console, config.guild.isSome ∧ config.client.isSome ∧ config.channel.isSome ∧
      ofConfig config = .ok console ∧ ∃ reply, console.handle "!who museun".toList = .ok reply := by
  let entry : UsageReply := ⟨"<who>".toList, "${who} ${who:member}".toList⟩
  let usage : Usage := ⟨"<who>".toList, [.param "who".toList false false]⟩
  let template : Template := ⟨entry.reply,
    [.key "who".toList .string, .text [' '], .key "who".toList .member]⟩
  let commands : List Command := [⟨"who".toList, [entry]⟩]
  let compiled : List (Text × Usages Template) := [("who".toList, ⟨[(usage, template)]⟩)]
  have hu : Usage.ofPattern entry.pattern = .ok usage := by decide +kernel
  have ht : Template.ofBody entry.reply = .ok template := by decide +kernel
  have hcs : declareAll [] commands = .ok compiled := declareAll_eq_ok_iff.mpr
    ⟨.cons ⟨rfl, .cons ⟨hu, ht, by decide⟩ .nil⟩ .nil, by decide, by simp⟩
  constructor
  · let config : Config := ⟨['!'], none, none, none, commands⟩
    let console : Console := ⟨['!'], none, none, none, compiled⟩
    let inv : Invocation := ⟨"who".toList, ["museun".toList], "museun".toList⟩
    let arg : Argument := ⟨usage.pattern, "who".toList, "museun".toList⟩
    let m : Matched := ⟨usage.pattern, [arg], [], []⟩
    have h : ofConfig config = .ok console :=
      ofConfig_eq_ok_iff.mpr ⟨rfl, hcs, rfl, rfl, rfl⟩
    have hd : config.Dispatches "!who museun".toList inv entry m :=
      ⟨⟨"who museun".toList, by decide, by decide +kernel⟩, ⟨usage, hu, by decide +kernel⟩,
        _, List.mem_singleton_self _, rfl, [], [], rfl, nofun⟩
    have hk : (Segment.key "who".toList .string).Resolves console.directories console.messages m :=
      Segment.resolves_key_iff.mpr ⟨arg, "museun".toList, rfl, rfl⟩
    refine ⟨config, console, rfl, h, ((handle_fails_iff_lacks h _).1 _).mpr ?_⟩
    exact ⟨inv, entry, m, template, [.key "who".toList .string, .text [' ']], "who".toList,
      .member, [], hd, ht, rfl,
      List.forall_mem_cons.mpr ⟨hk, List.forall_mem_singleton.mpr ⟨[' '], rfl⟩⟩, .member rfl⟩
  · let guild : Guild := { Guild.empty with channels := [⟨⟨7⟩, "general".toList, .text⟩] }
    let config : Config := ⟨['!'], some "general".toList, some guild, some .empty, commands⟩
    let console : Console := ⟨['!'], some ⟨7⟩, some guild, some .empty, compiled⟩
    have h : ofConfig config = .ok console :=
      ofConfig_eq_ok_iff.mpr ⟨rfl, hcs, rfl, rfl, rfl⟩
    exact ⟨config, console, rfl, rfl, rfl, h, (handle_fails_iff_lacks h _).2.2 rfl rfl rfl⟩

end Console

end ChatCommand
