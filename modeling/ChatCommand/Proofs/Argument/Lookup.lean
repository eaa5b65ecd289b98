import ChatCommand.Template.Render

/-! # Lookups

A text refers to an entity by its id or by its name, never by both. So when nothing is found,
nothing has that id, or nothing goes by that name. Whether a coercion can be asked for at all depends
on the lists at hand, never on the argument.
-/

namespace ChatCommand

namespace Mention

variable {α : Type} {kind : Mention} {idOf : α → Option Id} {names : List (α → Option Text)}
  {entities : List α} {t : Text}

/-- The first entity with the id that a text gives or, if it gives none, with the text as a name,
where names of one sort are searched before those of the next. -/
def find? (kind : Mention) (idOf : α → Option Id) (names : List (α → Option Text))
    (entities : List α) (t : Text) : Option α :=
  match kind.extract? t with
  | some id => entities.find? (idOf · = some id)
  | none => names.findSome? fun name => entities.find? (name · = some t)

theorem find?_eq_none_iff : kind.find? idOf names entities t = none ↔
    (∀ id, kind.extract? t = some id → ∀ a ∈ entities, idOf a ≠ some id) ∧
      (kind.extract? t = none → ∀ a ∈ entities, ∀ name ∈ names, name a ≠ some t) := by
  rw [find?]
  cases kind.extract? t with
  | none =>
    simp only [List.findSome?_eq_none_iff, List.find?_eq_none, decide_eq_true_eq]
    exact ⟨fun h => ⟨nofun, fun _ a ha name hn => h name hn a ha⟩,
      fun h name hn a ha => h.2 trivial a ha name hn⟩
  | some id => simp

/-- The same in a list that may be missing. -/
def lookUp (kind : Mention) (missing : MissingDirectory) (idOf : α → Option Id)
    (names : List (α → Option Text)) (entities? : Option (List α)) (t : Text) :
    Except MissingDirectory (Option α) :=
  match entities? with
  | none => .error missing
  | some entities => .ok (kind.find? idOf names entities t)

theorem eq_lookUp {missing : MissingDirectory} {entities? : Option (List α)}
    {result : Except MissingDirectory (Option α)}
    (hmissing : entities? = none → result = .error missing)
    (hid : ∀ entities id, entities? = some entities → kind.extract? t = some id →
      result = .ok (entities.find? (idOf · = some id)))
    (hname : ∀ entities, entities? = some entities → kind.extract? t = none →
      result = .ok (names.findSome? fun name => entities.find? (name · = some t))) :
    result = kind.lookUp missing idOf names entities? t := by
  cases entities? with
  | none => exact hmissing rfl
  | some entities =>
    rw [lookUp, find?]
    cases hx : kind.extract? t with
    | none => exact hname entities rfl hx
    | some id => exact hid entities id rfl hx

end Mention

theorem filter_nil {α κ : Type} [BEq κ] (kind : α → κ) (found : Option α) :
    (found.filter fun a => ([] : List κ).isEmpty || ([] : List κ).contains (kind a)) = found := by
  cases found <;> rfl

theorem findSome?_cons_eq_or {α β : Type} (f : α → Option β) (a : α) (as : List α) :
    (a :: as).findSome? f = (f a).or (as.findSome? f) := by
  rw [List.findSome?_cons]
  cases f a <;> rfl

namespace Argument

variable (d : Directories) (arg : Argument)

theorem channel_eq_lookUp : arg.channel d [] = Mention.channel.lookUp .channels
    (fun c => some c.id) [fun c => some c.name] d.channels arg.text :=
  Mention.eq_lookUp (fun h => by rw [channel, h])
    (fun channels id h hx => by simp only [channel, filter_nil, h, hx, Option.some.injEq])
    fun channels h hx => by
      simp only [channel, filter_nil, h, hx, List.findSome?_singleton, Option.some.injEq]

theorem emoji_eq_lookUp : arg.emoji d [] = Mention.emoji.lookUp .emojis
    (fun e => some e.id) [fun e => some e.name] d.emojis arg.text :=
  Mention.eq_lookUp (fun h => by rw [emoji, h])
    (fun emojis id h hx => by simp only [emoji, filter_nil, h, hx, Option.some.injEq])
    fun emojis h hx => by
      simp only [emoji, filter_nil, h, hx, List.findSome?_singleton, Option.some.injEq]

theorem member_eq_lookUp : arg.member d = Mention.user.lookUp .members (fun m => some m.user.id)
    [fun m => some m.user.tag, Member.nickname, fun m => some m.user.username] d.members
    arg.text :=
  Mention.eq_lookUp (fun h => by rw [member, h])
    (fun members id h hx => by simp only [member, h, hx, Option.some.injEq])
    fun members h hx => by
      simp only [member, h, hx, findSome?_cons_eq_or, List.findSome?_nil, Option.or_none,
        Option.some.injEq]

theorem user_eq_lookUp : arg.user d = Mention.user.lookUp .users (fun u => some u.id)
    [fun u => some u.tag, fun u => some u.username] d.users arg.text :=
  Mention.eq_lookUp (fun h => by rw [user, h])
    (fun users id h hx => by simp only [user, h, hx, Option.some.injEq])
    fun users h hx => by
      simp only [user, h, hx, findSome?_cons_eq_or, List.findSome?_nil, Option.or_none,
        Option.some.injEq]

theorem role_eq_lookUp : arg.role d = Mention.role.lookUp .roles
    (fun r => some r.id) [fun r => some r.name] d.roles arg.text :=
  Mention.eq_lookUp (fun h => by rw [role, h])
    (fun roles id h hx => by simp only [role, h, hx, Option.some.injEq])
    fun roles h hx => by simp only [role, h, hx, List.findSome?_singleton, Option.some.injEq]

end Argument

namespace Directories

/-- The names by which entities of a kind go. -/
def names (d : Directories) : Coercion → List Text
  | .channel => (d.channels.getD []).map (·.name)
  | .emoji => (d.emojis.getD []).map (·.name)
  | .member => (d.members.getD []).flatMap fun member =>
      member.user.tag :: member.user.username :: member.nickname.toList
  | .user => (d.users.getD []).flatMap fun user => [user.tag, user.username]
  | .role => (d.roles.getD []).map (·.name)
  | _ => []

def ids (d : Directories) : Coercion → List Id
  | .channel => (d.channels.getD []).map (·.id)
  | .emoji => (d.emojis.getD []).map (·.id)
  | .member => (d.members.getD []).map (·.user.id)
  | .user => (d.users.getD []).map (·.id)
  | .role => (d.roles.getD []).map (·.id)
  | _ => []

end Directories

namespace Coercion

/-- The mentions that refer to what the coercion looks up, if it looks up a named entity. -/
def mention? : Coercion → Option Mention
  | channel => some .channel
  | emoji => some .emoji
  | member => some .user
  | user => some .user
  | role => some .role
  | _ => none

variable {d : Directories} {messages : Option (List Message)} {arg : Argument}

/-- The error of a coercion that asks for something that is not at hand. -/
def refusal? (d : Directories) (messages : Option (List Message)) :
    Coercion → Option RenderError
  | channel => if d.channels = none then some (.missingDirectory .channels) else none
  | emoji => if d.emojis = none then some (.missingDirectory .emojis) else none
  | member => if d.members = none then some (.missingDirectory .members) else none
  | user => if d.users = none then some (.missingDirectory .users) else none
  | role => if d.roles = none then some (.missingDirectory .roles) else none
  | message => if messages = none then some .noMessages else none
  | _ => none

section Found

variable {α : Type} {write : α → Text} {kind : Mention} {missing : MissingDirectory}
  {idOf : α → Option Id} {names : List (α → Option Text)} {entities? : Option (List α)} {t : Text}

theorem found_lookUp_eq_error_iff {e : RenderError} :
    found write (kind.lookUp missing idOf names entities? t) = .error e ↔
      (if entities? = none then some (.missingDirectory missing) else none) = some e := by
  cases entities? <;> simp [found, Mention.lookUp]

theorem found_lookUp_eq_none_iff {e : RenderError} {ids : List Id} {texts : List Text}
    (hids : ∀ id, id ∈ ids ↔ ∃ a ∈ entities?.getD [], idOf a = some id)
    (htexts : ∀ t, t ∈ texts ↔ ∃ a ∈ entities?.getD [], ∃ name ∈ names, name a = some t) :
    found write (kind.lookUp missing idOf names entities? t) = .ok none ↔
      (if entities? = none then some e else none) = none ∧
        (∀ id, kind.extract? t = some id → id ∉ ids) ∧ (kind.extract? t = none → t ∉ texts) := by
  cases entities? with
  | none => simp [found, Mention.lookUp]
  | some entities =>
    have hn : kind.find? idOf names entities t = none ↔
        (∀ id, kind.extract? t = some id → id ∉ ids) ∧ (kind.extract? t = none → t ∉ texts) := by
      simp only [Mention.find?_eq_none_iff, hids, htexts, Option.getD_some, not_exists, not_and]
    simp [found, Mention.lookUp, hn]

end Found

theorem value_eq_error_iff (arg : Argument) {coercion : Coercion} {e : RenderError} :
    coercion.value d messages arg = .error e ↔ coercion.refusal? d messages = some e := by
  cases coercion with
  | channel | emoji | member | user | role =>
    simp only [value, Argument.channel_eq_lookUp, Argument.emoji_eq_lookUp,
      Argument.member_eq_lookUp, Argument.user_eq_lookUp, Argument.role_eq_lookUp]
    exact found_lookUp_eq_error_iff
  | message => cases messages <;> simp [value, refusal?]
  | _ => exact ⟨nofun, nofun⟩

/-- A lookup by id finds nothing if no entity of the kind has the id, any other if none goes by the
name. -/
theorem value_eq_none_iff {coercion : Coercion} {kind : Mention}
    (h : coercion.mention? = some kind) :
    coercion.value d messages arg = .ok none ↔ coercion.refusal? d messages = none ∧
      (∀ id, kind.extract? arg.text = some id → id ∉ d.ids coercion) ∧
      (kind.extract? arg.text = none → arg.text ∉ d.names coercion) := by
  cases coercion with
  | channel | emoji | member | user | role =>
    obtain rfl := Option.some.inj h
    simp only [value, Argument.channel_eq_lookUp, Argument.emoji_eq_lookUp,
      Argument.member_eq_lookUp, Argument.user_eq_lookUp, Argument.role_eq_lookUp]
    exact found_lookUp_eq_none_iff (by simp [Directories.ids])
      (by simp [Directories.names, eq_comm, or_comm])
  | _ => cases h

end Coercion

end ChatCommand
