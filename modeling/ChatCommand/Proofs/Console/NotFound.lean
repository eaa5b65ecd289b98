import ChatCommand.Proofs.Console.Declared
import ChatCommand.Proofs.Template.Filling

/-! # Replies that something cannot be found

A reply breaks off at the first key whose lookup comes up empty, and names what the argument says
without its quotes. Unless the argument is quoted, nothing of the kind goes by that name, or, if it
is an id or a mention, nothing has that id.
-/

namespace ChatCommand

namespace Template

variable {d : Directories} {messages : Option (List Message)} {m : Matched} {template : Template}
  {coercion : Coercion} {given : Text}

theorem render_notFound_iff :
    template.render d messages m = .ok (.notFound coercion given) ↔ ∃ before name after arg,
      template.segments = before ++ .key name coercion :: after ∧
      (∀ segment ∈ before, segment.Resolves d messages m) ∧ m.get? name = some arg ∧
      coercion.value d messages arg = .ok none ∧ arg.string = given := by
  rw [render_eq_notFound_iff, fill_eq_iff_of_ne_filled (by simp)]
  constructor
  · rintro ⟨before, segment, after, hs, hb, hr⟩
    cases segment with
    | text t => cases hr
    | key name coercion' =>
      obtain ⟨rfl, arg, ha, hv, hg⟩ := Segment.reply_key_eq_notFound_iff.mp hr
      exact ⟨before, name, after, arg, hs, hb, ha, hv, hg⟩
  · rintro ⟨before, name, after, arg, hs, hb, ha, hv, hg⟩
    exact ⟨before, _, after, hs, hb, Segment.reply_key_eq_notFound_iff.mpr ⟨rfl, arg, ha, hv, hg⟩⟩

end Template

namespace Console

variable {config : Config} {console : Console} {line given : Text} {inv : Invocation}
  {usages : Usages Template} {template : Template} {m : Matched} {coercion : Coercion}
  {kind : Mention}

/-- If a line is answered with what cannot be found, the lookup of an argument came up empty. An id
or a mention that it gives belongs to nothing of the kind. Any other text that is shown as it is, is
the name of nothing of the kind. -/
theorem notFound_of_lookup (h : ofConfig config = .ok console)
    (hi : console.invoked? line = some (inv, usages))
    (hf : usages.find inv.items inv.text = .success template m)
    (hr : template.render console.directories console.messages m = .ok (.notFound coercion given))
    (hk : coercion.mention? = some kind) :
    console.handle line = .ok (some ("I can't find ".toList ++ coercion.name ++ " '".toList ++
      given ++ "'".toList)) ∧
    ∃ before name after arg, template.segments = before ++ .key name coercion :: after ∧
      (∀ segment ∈ before, segment.Resolves console.directories console.messages m) ∧
      m.get? name = some arg ∧
      coercion.value console.directories console.messages arg = .ok none ∧ arg.string = given ∧
      (∀ id, kind.extract? arg.text = some id →
        id ∉ (Directories.of config.guild config.client).ids coercion) ∧
      (kind.extract? arg.text = none → arg.text = given →
        given ∉ (Directories.of config.guild config.client).names coercion) := by
  obtain ⟨before, name, after, arg, hs, hb, ha, hv, hg⟩ := Template.render_notFound_iff.mp hr
  obtain ⟨-, hid, hname⟩ := (Coercion.value_eq_none_iff hk).mp hv
  rw [directories_eq h] at hid hname
  refine ⟨handle_of_render hi hf hr, before, name, after, arg, hs, hb, ha, hv, hg, hid, ?_⟩
  rintro hx rfl
  exact hname hx

theorem notFound_of_lookup_member :
    let guild : Guild := { Guild.empty with
      members := [⟨⟨⟨7⟩, "museun".toList, some "0001".toList⟩, some "shaken".toList⟩] }
    let config : Config := ⟨['!'], none, some guild, none,
      [⟨"ban".toList, [⟨"<who>".toList, "banning ${who:member}".toList⟩]⟩]⟩
    ∃ console, ofConfig config = .ok console ∧
      console.handle "!ban museun#2".toList = .ok (some "I can't find member 'museun#2'".toList) ∧
      "museun#2".toList ∉ (Directories.of config.guild config.client).names .member := by
  intro guild config
  let usage : Usage := ⟨"<who>".toList, [.param "who".toList false false]⟩
  let template : Template := ⟨"banning ${who:member}".toList,
    [.text "banning ".toList, .key "who".toList .member]⟩
  let console : Console := ⟨['!'], none, some guild, none, [("ban".toList, ⟨[(usage, template)]⟩)]⟩
  let inv : Invocation := ⟨"ban".toList, ["museun#2".toList], "museun#2".toList⟩
  let m : Matched := ⟨usage.pattern, [⟨usage.pattern, "who".toList, "museun#2".toList⟩], [], []⟩
  have h : ofConfig config = .ok console :=
    ofConfig_singleton ⟨by decide +kernel, by decide +kernel, by decide⟩ rfl _ _ _
  have hc : console.commands = [("ban".toList, ⟨[(usage, template)]⟩)] := rfl
  have hl : Text.after? ['!'] (Text.trim "!ban museun#2".toList) =
      some "ban museun#2".toList := by decide
  have hi : Invocation.ofLine? "ban museun#2".toList = some inv := by decide +kernel
  have hm : usage.attempt inv.items inv.text = .ok m := by decide +kernel
  obtain ⟨usages, hi, hf⟩ := exists_find_of_singleton hc hl hi rfl hm
  have hr : template.render console.directories console.messages m =
      .ok (.notFound .member "museun#2".toList) := by decide +kernel
  obtain ⟨hh, before, name, after, arg, hs, -, ha, -, -, -, hname⟩ :=
    notFound_of_lookup h hi hf hr rfl
  have hk : .key name .member ∈ template.segments :=
    hs ▸ List.mem_append_right _ List.mem_cons_self
  obtain rfl : name = "who".toList := by simpa [template] using hk
  obtain rfl : ⟨usage.pattern, "who".toList, "museun#2".toList⟩ = arg :=
    Option.some.inj (Eq.trans (by decide) ha)
  exact ⟨console, h, hh, hname (by decide +kernel) rfl⟩

/-- A channel is not found by its name if the name is written in quotes, or looks like an id. -/
theorem notFound_of_named_channel :
    let guild : Guild := { Guild.empty with
      channels := [⟨⟨100000000000000001⟩, "general".toList, .text⟩,
        ⟨⟨100000000000000002⟩, "100000000000000009".toList, .text⟩] }
    let config : Config := ⟨['!'], none, some guild, none,
      [⟨"find".toList, [⟨"<x>".toList, "${x:channel}".toList⟩]⟩]⟩
    ∃ console, ofConfig config = .ok console ∧
      ∀ line given, (line, given) ∈ [("!find \"general\"".toList, "general".toList),
          ("!find 100000000000000009".toList, "100000000000000009".toList)] →
        (∃ inv usages template m, console.invoked? line = some (inv, usages) ∧
          usages.find inv.items inv.text = .success template m ∧
          template.render console.directories console.messages m = .ok (.notFound .channel given)) ∧
        given ∈ (Directories.of config.guild config.client).names .channel := by
  intro guild config
  let usage : Usage := ⟨"<x>".toList, [.param ['x'] false false]⟩
  let template : Template := ⟨"${x:channel}".toList, [.key ['x'] .channel]⟩
  let console : Console := ⟨['!'], none, some guild, none, [("find".toList, ⟨[(usage, template)]⟩)]⟩
  have h : ofConfig config = .ok console :=
    ofConfig_singleton ⟨by decide +kernel, by decide +kernel, by decide⟩ rfl _ _ _
  let m : Text → Matched := fun item =>
    ⟨usage.pattern, [⟨usage.pattern, ['x'], item⟩], [], []⟩
  have hanswer : ∀ line rest item given, Text.after? ['!'] (Text.trim line) = some rest →
      Invocation.ofLine? rest = some ⟨"find".toList, [item], item⟩ →
      usage.attempt [item] item = .ok (m item) →
      template.render console.directories console.messages (m item) =
        .ok (.notFound .channel given) →
      ∃ inv usages template m, console.invoked? line = some (inv, usages) ∧
        usages.find inv.items inv.text = .success template m ∧
        template.render console.directories console.messages m =
          .ok (.notFound .channel given) := by
    intro line rest item given hl hi hm hr
    have hc : console.commands = [("find".toList, ⟨[(usage, template)]⟩)] := rfl
    obtain ⟨usages, hi, hf⟩ := exists_find_of_singleton hc hl hi rfl hm
    exact ⟨_, usages, template, m item, hi, hf, hr⟩
  refine ⟨console, h, fun line given hmem => ?_⟩
  rcases List.mem_pair.mp hmem with ⟨rfl, rfl⟩ | ⟨rfl, rfl⟩
  · exact ⟨hanswer _ "find \"general\"".toList "\"general\"".toList _ (by decide)
      (by decide +kernel) (by decide +kernel) (by decide +kernel), by decide +kernel⟩
  · exact ⟨hanswer _ "find 100000000000000009".toList "100000000000000009".toList _ (by decide)
      (by decide +kernel) (by decide +kernel) (by decide +kernel), by decide +kernel⟩

end Console

end ChatCommand
