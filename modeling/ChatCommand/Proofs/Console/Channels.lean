import ChatCommand.Proofs.Console.Declared

/-! # Messages of other channels

Two configurations that differ only in the messages of channels other than the current one are
accepted alike, and their consoles give the same answer to every line.
-/

namespace ChatCommand

def Guild.withoutMessages (guild : Guild) : Guild := { guild with messages := [] }

def Config.withoutMessages (config : Config) : Config :=
  { config with guild := config.guild.map Guild.withoutMessages }

namespace Console

/-- Refused with the same error, or consoles that answer every line alike. -/
inductive SameAnswers : Except ConsoleError Console → Except ConsoleError Console → Prop where
  | refused (e : ConsoleError) : SameAnswers (.error e) (.error e)
  | accepted {console other : Console} :
      (∀ line, console.handle line = other.handle line) → SameAnswers (.ok console) (.ok other)

theorem directories_withoutMessages (guild : Option Guild) (client : Option Client) :
    Directories.of (guild.map Guild.withoutMessages) client = .of guild client := by
  cases guild <;> rfl

theorem currentChannel_withoutMessages (channel : Option Text) (guild : Option Guild) :
    currentChannel channel (guild.map Guild.withoutMessages) = currentChannel channel guild := by
  cases channel <;> cases guild <;> rfl

variable {config config' : Config}

theorem ofConfig_eq_of_withoutMessages (h : config.withoutMessages = config'.withoutMessages) :
    ofConfig config' =
      (fun console => { console with guild := config'.guild }) <$> ofConfig config := by
  simp only [Config.withoutMessages, Config.mk.injEq] at h
  obtain ⟨hl, hc, hg, hcl, hcs⟩ := h
  have hch : currentChannel config'.channel config'.guild =
      currentChannel config.channel config.guild := by
    rw [← currentChannel_withoutMessages, ← hg, ← hc, currentChannel_withoutMessages]
  rw [ofConfig, ofConfig, hch, ← hcs, ← hl, ← hcl]
  cases currentChannel config.channel config.guild with
  | error e => rfl
  | ok channel => cases declareAll [] config.commands <;> rfl

/-- Messages of other channels show in no answer. -/
theorem sameAnswers_of_currentMessages (h : config.withoutMessages = config'.withoutMessages)
    (hm : config.currentMessages = config'.currentMessages) :
    SameAnswers (ofConfig config) (ofConfig config') := by
  have he := ofConfig_eq_of_withoutMessages h
  cases hc : ofConfig config with
  | error e =>
    rw [he, hc]
    exact .refused e
  | ok console =>
    rw [hc] at he
    rw [he]
    refine .accepted fun line => handle_congr rfl rfl ?_ ?_
    · rw [directories_eq hc, directories_eq he, ← directories_withoutMessages,
        ← directories_withoutMessages config'.guild]
      exact congrArg (fun c => Directories.of c.guild c.client) h
    · rw [messages_eq hc, messages_eq he, hm]
      exact congrArg (fun c => c.channel.map fun _ => config'.currentMessages) h

/-- Both consoles quote the message of the current channel, although another one of its id stands in
front of it in the second one. -/
theorem sameAnswers_of_currentMessages_quote :
    let guild : List Message → Guild := fun messages => { Guild.empty with
      channels := [⟨⟨1⟩, "general".toList, .text⟩, ⟨⟨2⟩, "private".toList, .text⟩], messages }
    let config : List Message → Config := fun messages =>
      ⟨['!'], some "general".toList, some (guild messages), none,
        [⟨"quote".toList, [⟨"<x>".toList, "${x:message}".toList⟩]⟩]⟩
    let told : Message := ⟨⟨500000000000000001⟩, ⟨1⟩, ⟨7⟩, "hello".toList⟩
    let secret : Message := ⟨⟨500000000000000001⟩, ⟨2⟩, ⟨7⟩, "secret".toList⟩
    (config [told]).currentMessages = (config [secret, told]).currentMessages ∧
      ∃ console other, ofConfig (config [told]) = .ok console ∧
        ofConfig (config [secret, told]) = .ok other ∧
        (∀ line, console.handle line = other.handle line) ∧
        other.handle "!quote 500000000000000001".toList = .ok (some "hello".toList) := by
  intro guild config told secret
  let usage : Usage := ⟨"<x>".toList, [.param ['x'] false false]⟩
  let template : Template := ⟨"${x:message}".toList, [.key ['x'] .message]⟩
  let console : List Message → Console := fun messages =>
    ⟨['!'], some ⟨1⟩, some (guild messages), none, [("quote".toList, ⟨[(usage, template)]⟩)]⟩
  have h : ∀ messages, ofConfig (config messages) = .ok (console messages) := fun _ =>
    ofConfig_singleton ⟨by decide +kernel, by decide +kernel, by decide⟩ rfl _ _ _
  have hm : (config [told]).currentMessages = (config [secret, told]).currentMessages := by
    decide +kernel
  have hsame : SameAnswers (ofConfig (config [told])) (ofConfig (config [secret, told])) :=
    sameAnswers_of_currentMessages rfl hm
  rw [h, h] at hsame
  refine ⟨hm, console [told], console [secret, told], h _, h _, ?_, ?_⟩
  · cases hsame with
    | accepted hsame => exact hsame
  · let id := "500000000000000001".toList
    have hc : (console [secret, told]).commands = [("quote".toList, ⟨[(usage, template)]⟩)] := rfl
    have hl : Text.after? ['!'] (Text.trim ("!quote ".toList ++ id)) =
        some ("quote ".toList ++ id) := by decide
    have hi : Invocation.ofLine? ("quote ".toList ++ id) = some ⟨"quote".toList, [id], id⟩ := by
      decide +kernel
    have ha : usage.attempt [id] id =
        .ok ⟨usage.pattern, [⟨usage.pattern, ['x'], id⟩], [], []⟩ := by
      decide +kernel
    obtain ⟨usages, hi, hf⟩ := exists_find_of_singleton hc hl hi rfl ha
    have hr : template.render (console [secret, told]).directories (console [secret, told]).messages
        ⟨usage.pattern, [⟨usage.pattern, ['x'], id⟩], [], []⟩ = .ok (.filled "hello".toList) := by
      decide +kernel
    exact handle_of_render hi hf hr

end Console

end ChatCommand
