import ChatCommand.Proofs.Template.Filling
import ChatCommand.Template.Parser

/-! # Rendering from left to right

If all keys of a template have values, the reply is made of the texts and the values as they are,
one after the other, and is trimmed once. Otherwise the first key without a value decides alone.
-/

namespace ChatCommand.Template

variable {d : Directories} {messages : Option (List Message)} {m : Matched}

inductive Segment.Fills (d : Directories) (messages : Option (List Message)) (m : Matched) :
    Segment → Text → Prop where
  | text (t : Text) : Fills d messages m (text t) t
  | value {name t : Text} {coercion : Coercion} {arg : Argument} : m.get? name = some arg →
      coercion.value d messages arg = .ok (some t) → Fills d messages m (key name coercion) t

/-- The answer because of a key without a value. It is an error if there is no such argument, or if
nothing is at hand to look it up in. -/
def answerWithout (d : Directories) (messages : Option (List Message)) (m : Matched) (name : Text)
    (coercion : Coercion) : Except RenderError Text :=
  match m.get? name with
  | none => .error (.noArgument m.usage name)
  | some arg =>
    match coercion.refusal? d messages with
    | some e => .error e
    | none => .ok ("I can't find ".toList ++ coercion.name ++ " '".toList ++ arg.string ++
        "'".toList)

variable {segment : Segment} {segments : List Segment} {template : Template} {t name : Text}
  {coercion : Coercion} {texts : List Text}

theorem Segment.reply_eq_filled_iff :
    segment.reply d messages m = .ok (.filled t) ↔ segment.Fills d messages m t := by
  constructor
  · intro h
    cases segment with
    | text t' =>
      obtain rfl := Reply.filled.inj (Except.ok.inj h)
      exact .text t'
    | key name coercion =>
      obtain ⟨arg, t', ha, hv⟩ := resolves_key_iff.mp ⟨t, h⟩
      simp only [reply, ha, hv] at h
      obtain rfl := Reply.filled.inj (Except.ok.inj h)
      exact .value ha hv
  · intro h
    cases h with
    | text => rfl
    | value ha hv => simp only [reply, ha, hv]

theorem Segment.resolves_iff :
    segment.Resolves d messages m ↔ ∃ t, segment.Fills d messages m t := by
  simp only [Resolves, reply_eq_filled_iff]

theorem fill_eq_flatten (h : List.Forall₂ (Segment.Fills d messages m) segments texts) :
    fill d messages m segments = .ok (.filled texts.flatten) := by
  induction h with
  | nil => rfl
  | cons hs _ ih =>
    rw [fill_cons, Segment.reply_eq_filled_iff.mpr hs, ih]
    rfl

theorem text_reply_eq_answerWithout (h : ¬ (Segment.key name coercion).Resolves d messages m) :
    Reply.text <$> (Segment.key name coercion).reply d messages m =
      answerWithout d messages m name coercion := by
  rw [Segment.reply, answerWithout]
  cases ha : m.get? name with
  | none => rfl
  | some arg =>
    dsimp only
    cases hv : coercion.value d messages arg with
    | error e =>
      rw [(Coercion.value_eq_error_iff arg).mp hv]
      rfl
    | ok value =>
      have hr : coercion.refusal? d messages = none := by
        rw [Option.eq_none_iff_forall_ne_some]
        intro e he
        cases hv.symm.trans ((Coercion.value_eq_error_iff arg).mpr he)
      rw [hr]
      cases value with
      | none => rfl
      | some t => exact absurd (Segment.resolves_key_iff.mpr ⟨arg, t, ha, hv⟩) h

theorem render_of_not_resolves {before after : List Segment}
    (hs : template.segments = before ++ segment :: after)
    (hb : ∀ s ∈ before, s.Resolves d messages m) (hn : ¬ segment.Resolves d messages m) :
    template.render d messages m = segment.reply d messages m := by
  have hne : ∀ t, segment.reply d messages m ≠ .ok (.filled t) := fun t ht => hn ⟨t, ht⟩
  have hf : fill d messages m template.segments = segment.reply d messages m :=
    (fill_eq_iff_of_ne_filled hne).mpr ⟨before, segment, after, hs, hb, rfl⟩
  rw [render, hf]
  cases hr : segment.reply d messages m with
  | error e => rfl
  | ok reply =>
    cases reply with
    | filled t => exact absurd hr (hne t)
    | notFound coercion given => rfl

theorem fills_or_exists_first (segments : List Segment) :
    (∃ texts, List.Forall₂ (Segment.Fills d messages m) segments texts) ∨
    ∃ before name coercion after, segments = before ++ .key name coercion :: after ∧
      (∀ segment ∈ before, ∃ t, segment.Fills d messages m t) ∧
      ¬ ∃ t, (Segment.key name coercion).Fills d messages m t := by
  induction segments with
  | nil => exact .inl ⟨[], .nil⟩
  | cons segment segments ih =>
    by_cases hs : ∃ t, segment.Fills d messages m t
    · rcases ih with ⟨texts, hf⟩ | ⟨before, name, coercion, after, rfl, hb, hn⟩
      · obtain ⟨t, ht⟩ := hs
        exact .inl ⟨t :: texts, .cons ht hf⟩
      · exact .inr ⟨segment :: before, name, coercion, after, rfl,
          List.forall_mem_cons.mpr ⟨hs, hb⟩, hn⟩
    · cases segment with
      | text t => exact absurd ⟨t, .text t⟩ hs
      | key name coercion => exact .inr ⟨[], name, coercion, segments, rfl, nofun, hs⟩

/-- The message fetched for an argument, whatever its own id, under the id that was asked for. -/
def fetched (fetch : Id → Option Message) (arg : Argument) : Option Message :=
  (Mention.channel.extract? arg.text).bind fun id => (fetch id).map ({ · with id })

/-- In whatever way messages are fetched by their ids, some list of messages gives the arguments the
same contents. -/
theorem exists_messages_of_fetch (fetch : Id → Option Message) (args : List Argument) :
    ∃ messages, ∀ arg ∈ args, (arg.message? messages).map (·.content) =
      ((Mention.channel.extract? arg.text).bind fetch).map (·.content) := by
  refine ⟨args.filterMap (fetched fetch), fun arg harg => ?_⟩
  rw [Argument.message?]
  cases hx : Mention.channel.extract? arg.text with
  | none => rfl
  | some id =>
    rw [Option.bind_some, Option.bind_some]
    cases hf : (args.filterMap (fetched fetch)).find? (·.id = id) with
    | none =>
      cases hm : fetch id with
      | none => rfl
      | some message =>
        have hfetched : fetched fetch arg = some { message with id } := by
          simp only [fetched, hx, Option.bind_some, hm, Option.map_some]
        have hmem := List.mem_filterMap.mpr ⟨arg, harg, hfetched⟩
        exact absurd (decide_eq_true rfl) (List.find?_eq_none.mp hf _ hmem)
    | some found =>
      obtain ⟨other, -, hother⟩ := List.mem_filterMap.mp (List.mem_of_find?_eq_some hf)
      obtain ⟨id', -, hother⟩ := Option.bind_eq_some_iff.mp hother
      obtain ⟨message, hm, rfl⟩ := Option.map_eq_some_iff.mp hother
      obtain rfl : id' = id := by simpa using List.find?_some hf
      rw [hm]
      rfl

/-- If every key has a value, the reply is the texts and the values in order, trimmed once. If not,
there is a first key that has none, and the answer is the one because of it, whatever else the
template holds. The messages at hand may stand for any way to fetch them. -/
theorem render_left_to_right (d : Directories) (messages : Option (List Message)) (m : Matched)
    (template : Template) :
    (∀ texts, List.Forall₂ (Segment.Fills d messages m) template.segments texts →
      Reply.text <$> template.render d messages m = .ok (Text.trim texts.flatten)) ∧
    (∀ before name coercion after, template.segments = before ++ .key name coercion :: after →
      (∀ segment ∈ before, ∃ t, segment.Fills d messages m t) →
      (¬ ∃ t, (Segment.key name coercion).Fills d messages m t) →
      Reply.text <$> template.render d messages m = answerWithout d messages m name coercion) ∧
    ((∃ texts, List.Forall₂ (Segment.Fills d messages m) template.segments texts) ∨
      ∃ before name coercion after, template.segments = before ++ .key name coercion :: after ∧
        (∀ segment ∈ before, ∃ t, segment.Fills d messages m t) ∧
        ¬ ∃ t, (Segment.key name coercion).Fills d messages m t) ∧
    ∀ fetch : Id → Option Message, ∃ messages, ∀ arg ∈ m.args,
      (arg.message? messages).map (·.content) =
        ((Mention.channel.extract? arg.text).bind fetch).map (·.content) := by
  refine ⟨fun texts h => ?_, fun before name coercion after hs hb hn => ?_,
    fills_or_exists_first template.segments, fun fetch => exists_messages_of_fetch fetch m.args⟩
  · rw [render, fill_eq_flatten h]
    rfl
  · simp only [← Segment.resolves_iff] at hb hn
    rw [render_of_not_resolves hs hb hn, text_reply_eq_answerWithout hn]

/-- A value that looks like a key is not read again, and blanks around the whole are dropped. A word
that is no number is what cannot be found, although the member could not even be looked up. -/
theorem render_left_to_right_word :
    let m : Matched := ⟨"<a> <b>".toList, [⟨"<a> <b>".toList, ['a'], "${b} ".toList⟩,
      ⟨"<a> <b>".toList, ['b'], "\"x\"".toList⟩], [], []⟩
    (∃ template, ofBody " ${b}${a:text}".toList = .ok template ∧
      Reply.text <$> template.render .empty none m = .ok "x${b}".toList) ∧
    ∃ template, ofBody "${a}${b:integer}${a:member}".toList = .ok template ∧
      Reply.text <$> template.render .empty none m = .ok "I can't find integer 'x'".toList := by
  intro m
  let filled : Template := ⟨" ${b}${a:text}".toList,
    [.text [' '], .key ['b'] .string, .key ['a'] .text]⟩
  let broken : Template := ⟨"${a}${b:integer}${a:member}".toList,
    [.key ['a'] .string, .key ['b'] .integer, .key ['a'] .member]⟩
  refine ⟨⟨filled, by decide +kernel, ?_⟩, broken, by decide +kernel, ?_⟩
  · have hf : List.Forall₂ (Segment.Fills .empty none m) filled.segments
        [[' '], ['x'], "${b} ".toList] :=
      .cons (.text _) (.cons (.value rfl rfl) (.cons (.value rfl rfl) .nil))
    rw [(render_left_to_right .empty none m filled).1 _ hf]
    decide +kernel
  · have hb : ∀ segment ∈ [Segment.key ['a'] .string],
        ∃ t, segment.Fills .empty none m t := by
      intro segment hs
      obtain rfl := List.mem_singleton.mp hs
      exact ⟨"${b} ".toList, .value rfl rfl⟩
    have hn : ¬ ∃ t, (Segment.key ['b'] .integer).Fills .empty none m t := by
      rintro ⟨t, ht⟩
      cases ht with
      | value ha hv =>
        obtain rfl := Option.some.inj ha
        cases hv
    rw [(render_left_to_right .empty none m broken).2.1 _ _ _ _ rfl hb hn]
    decide +kernel

end ChatCommand.Template
