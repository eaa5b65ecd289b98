import Mathlib.Data.Prod.Lex
import Mathlib.Order.Bounds.Defs
import ChatCommand.Console
import ChatCommand.Proofs.Argument.Lookup
import ChatCommand.Proofs.Entity.Mention

/-! # Lookups as ranked searches

Entities go by names of different ranks. A lookup returns the entity whose name has the least rank,
and the first one in its list among several of that rank. An id or a mention is looked up in the
same way, with the id as the only name.
-/

namespace ChatCommand

section Search

variable {α κ : Type} {keys : List (α → Option κ)} {k : κ} {entities : List α}
  {found found' : Option α}

def matchPlaces (keys : List (α → Option κ)) (k : κ) (entities : List α) : Set (ℕ ×ₗ ℕ) :=
  {place | ∃ key a, keys[(ofLex place).1]? = some key ∧ entities[(ofLex place).2]? = some a ∧
    key a = some k}

/-- The entity at the least place, or nothing if there is no place at all. -/
inductive BestMatch (keys : List (α → Option κ)) (k : κ) (entities : List α) : Option α → Prop where
  | none : matchPlaces keys k entities = ∅ → BestMatch keys k entities none
  | some {rank position : ℕ} {a : α} :
      IsLeast (matchPlaces keys k entities) (toLex (rank, position)) →
      entities[position]? = some a → BestMatch keys k entities (some a)

theorem BestMatch.unique (h : BestMatch keys k entities found)
    (h' : BestMatch keys k entities found') : found = found' := by
  cases h with
  | none he =>
    cases h' with
    | none => rfl
    | some hl _ => exact absurd (he ▸ hl.1) (Set.notMem_empty _)
  | some hl ha =>
    cases h' with
    | none he => exact absurd (he ▸ hl.1) (Set.notMem_empty _)
    | some hl' ha' =>
      obtain ⟨-, rfl⟩ := Prod.mk.inj (toLex.injective (hl.unique hl'))
      exact ha.symm.trans ha'

variable [DecidableEq κ]

theorem bestMatch_findSome? (keys : List (α → Option κ)) (k : κ) (entities : List α) :
    BestMatch keys k entities
      (keys.findSome? fun key => entities.find? (key · = some k)) := by
  cases hf : keys.findSome? fun key => entities.find? (key · = some k) with
  | none =>
    refine .none (Set.eq_empty_iff_forall_notMem.mpr ?_)
    rintro place ⟨key, a, hk, ha, he⟩
    have hn := List.findSome?_eq_none_iff.mp hf key (List.mem_of_getElem? hk)
    exact List.find?_eq_none.mp hn a (List.mem_of_getElem? ha) (decide_eq_true he)
  | some a =>
    obtain ⟨before, key, after, rfl, hfirst, hbefore⟩ := List.findSome?_eq_some_iff.mp hf
    obtain ⟨he, front, back, rfl, hfront⟩ := List.find?_eq_some_iff_append.mp hfirst
    refine .some (?_ : IsLeast _ (toLex (before.length, front.length))) (by simp)
    refine ⟨⟨key, a, by simp, by simp, of_decide_eq_true he⟩, ?_⟩
    rintro place ⟨key', a', hk, ha, he'⟩
    have hrank : before.length ≤ (ofLex place).1 := by
      by_contra hlt
      rw [List.getElem?_append_left (by omega)] at hk
      have hn := hbefore key' (List.mem_of_getElem? hk)
      exact List.find?_eq_none.mp hn a' (List.mem_of_getElem? ha) (decide_eq_true he')
    have hposition : before.length = (ofLex place).1 → front.length ≤ (ofLex place).2 := by
      intro hr
      by_contra hlt
      obtain rfl : key = key' := by simpa [← hr] using hk
      rw [List.getElem?_append_left (by omega)] at ha
      have hn := hfront a' (List.mem_of_getElem? ha)
      simp [he'] at hn
    exact Prod.Lex.le_iff.mpr (hrank.lt_or_eq.imp_right fun hr => ⟨hr, hposition hr⟩)

theorem findSome?_eq_iff :
    (keys.findSome? fun key => entities.find? (key · = some k)) = found ↔
      BestMatch keys k entities found :=
  ⟨fun h => h ▸ bestMatch_findSome? keys k entities,
    fun h => (bestMatch_findSome? keys k entities).unique h⟩

end Search

section Lookup

variable {α : Type} {kind : Mention} {idOf : α → Option Id} {names : List (α → Option Text)}
  {entities : List α} {t : Text} {found : Option α}

/-- What a text refers to among entities: if it is an id or a mention, the first entity with the id,
and if not, the best match by name. -/
structure RefersTo (kind : Mention) (idOf : α → Option Id) (names : List (α → Option Text))
    (entities : List α) (t : Text) (found : Option α) : Prop where
  byId : ∀ id, kind.Refers t id → BestMatch [idOf] id entities found
  byName : (∀ id, ¬ kind.Refers t id) → BestMatch names t entities found

theorem find?_eq_iff_refersTo :
    kind.find? idOf names entities t = found ↔ RefersTo kind idOf names entities t found := by
  rw [Mention.find?]
  cases hx : kind.extract? t with
  | none =>
    have hn : ∀ id, ¬ kind.Refers t id := fun id h => by
      rw [Mention.extract?_eq_some_iff.mpr h] at hx
      cases hx
    rw [findSome?_eq_iff]
    exact ⟨fun h => ⟨fun id hid => absurd hid (hn id), fun _ => h⟩, fun h => h.byName hn⟩
  | some id =>
    have hr := Mention.extract?_eq_some_iff.mp hx
    have hfind : entities.find? (idOf · = some id) = found ↔
        BestMatch [idOf] id entities found := by
      rw [← findSome?_eq_iff, List.findSome?_singleton]
    rw [hfind]
    refine ⟨fun h => ⟨fun id' hr' => ?_, fun hn => absurd hr (hn id)⟩, fun h => h.byId id hr⟩
    obtain rfl := Option.some.inj (hx.symm.trans (Mention.extract?_eq_some_iff.mpr hr'))
    exact h

theorem lookUp_eq_ok_iff {missing : MissingDirectory} :
    kind.lookUp missing idOf names (some entities) t = .ok found ↔
      RefersTo kind idOf names entities t found := by
  rw [Mention.lookUp, Except.ok.injEq, find?_eq_iff_refersTo]

end Lookup

namespace Argument

variable {d : Directories} {arg : Argument}

theorem filter_kinds {α κ : Type} [DecidableEq κ] {kinds : List κ} (hk : kinds ≠ []) (kind : α → κ)
    (found : Option α) :
    (found.filter fun a => kinds.isEmpty || kinds.contains (kind a)) =
      found.filter (kind · ∈ kinds) := by
  simp [List.isEmpty_eq_false_iff.mpr hk]

theorem channel_of_kinds {kinds : List ChannelKind} (hk : kinds ≠ []) :
    arg.channel d kinds = Option.filter (·.kind ∈ kinds) <$> arg.channel d [] := by
  rw [channel, channel]
  cases d.channels with
  | none => rfl
  | some channels =>
    simp only [filter_nil, filter_kinds hk]
    rfl

theorem emoji_of_kinds {kinds : List EmojiKind} (hk : kinds ≠ []) :
    arg.emoji d kinds = Option.filter (·.kind ∈ kinds) <$> arg.emoji d [] := by
  rw [emoji, emoji]
  cases d.emojis with
  | none => rfl
  | some emojis =>
    simp only [filter_nil, filter_kinds hk]
    rfl

theorem message?_eq_iff {guild : Guild} {channel : Id} {found : Option Message} :
    arg.message? (guild.messagesIn channel) = found ↔
      RefersTo .channel (fun m => if m.channel = channel then some m.id else none) []
        guild.messages arg.text found := by
  -- messages of other channels have no id here, and no message has a name
  have hk : ∀ (m : Message) id, (if m.channel = channel then some m.id else none) = some id ↔
      m.channel = channel ∧ m.id = id := by
    intro m id
    split <;> simp [*]
  rw [← find?_eq_iff_refersTo, message?, Guild.messagesIn, Mention.find?]
  cases Mention.channel.extract? arg.text with
  | none => rfl
  | some id => simp only [Option.bind_some, List.find?_filter, hk, Bool.decide_and,
      Bool.decide_eq_true]

end Argument

theorem User.tag_eq (user : User) :
    user.tag = user.username ++ user.discriminator.elim [] ('#' :: ·) := by
  rw [tag]
  cases user.discriminator with
  | none => exact (List.append_nil _).symm
  | some discriminator => rfl

namespace Argument

/-- With a guild or a client at hand, every lookup returns what the text of the argument refers to
in its list. A list of kinds restricts what was found and not what is searched. -/
theorem lookups_ranked (console : Console) (arg : Argument) :
    (∀ guild, console.guild = some guild →
      (∀ found, arg.channel console.directories [] = .ok found ↔
        RefersTo .channel (fun c => some c.id) [fun c => some c.name] guild.channels arg.text
          found) ∧
      (∀ found, arg.emoji console.directories [] = .ok found ↔
        RefersTo .emoji (fun e => some e.id) [fun e => some e.name] guild.emojis arg.text found) ∧
      (∀ found, arg.member console.directories = .ok found ↔
        RefersTo .user (fun m => some m.user.id)
          [fun m => some m.user.tag, Member.nickname, fun m => some m.user.username]
          guild.members arg.text found) ∧
      (∀ found, arg.role console.directories = .ok found ↔
        RefersTo .role (fun r => some r.id) [fun r => some r.name] guild.roles arg.text found) ∧
      ∀ channel found, arg.message? (guild.messagesIn channel) = found ↔
        RefersTo .channel (fun m => if m.channel = channel then some m.id else none) []
          guild.messages arg.text found) ∧
    (∀ client, console.client = some client → ∀ found,
      arg.user console.directories = .ok found ↔
        RefersTo .user (fun u => some u.id) [fun u => some u.tag, fun u => some u.username]
          client.users arg.text found) ∧
    (∀ user : User, user.tag = user.username ++ user.discriminator.elim [] ('#' :: ·)) ∧
    (∀ kinds ≠ [], arg.channel console.directories kinds =
      Option.filter (·.kind ∈ kinds) <$> arg.channel console.directories []) ∧
    ∀ kinds ≠ [], arg.emoji console.directories kinds =
      Option.filter (·.kind ∈ kinds) <$> arg.emoji console.directories [] := by
  refine ⟨fun guild hg => ?_, fun client hc found => ?_, User.tag_eq, fun kinds hk => ?_,
    fun kinds hk => ?_⟩
  · have hd : console.directories = .of (some guild) console.client := by
      rw [Console.directories, hg]
    rw [hd]
    simp only [channel_eq_lookUp, emoji_eq_lookUp, member_eq_lookUp, role_eq_lookUp]
    exact ⟨fun _ => lookUp_eq_ok_iff, fun _ => lookUp_eq_ok_iff, fun _ => lookUp_eq_ok_iff,
      fun _ => lookUp_eq_ok_iff, fun _ _ => message?_eq_iff⟩
  · have hd : console.directories = .of console.guild (some client) := by
      rw [Console.directories, hc]
    rw [hd]
    rw [user_eq_lookUp]
    exact lookUp_eq_ok_iff
  · exact channel_of_kinds hk
  · exact emoji_of_kinds hk

/-- A member whose tag is the bare username comes before one who is nicknamed so, and a mention of
the latter finds the latter. -/
theorem lookups_ranked_bob :
    let ann : Member := ⟨⟨⟨10000000000000001⟩, "ann".toList, some "1".toList⟩, some "bob".toList⟩
    let bob : Member := ⟨⟨⟨10000000000000002⟩, "bob".toList, none⟩, none⟩
    let guild : Guild := { Guild.empty with
      members := [ann, bob], channels := [⟨⟨10000000000000003⟩, "bob".toList, .voice⟩] }
    let console : Console := ⟨['!'], none, some guild, some ⟨[ann.user, bob.user]⟩, []⟩
    let named : Argument := ⟨[], [], "bob".toList⟩
    let mentioned : Argument := ⟨[], [], "<@!10000000000000001>".toList⟩
    let ranks : List (Member → Option Text) :=
      [fun m => some m.user.tag, Member.nickname, fun m => some m.user.username]
    RefersTo .user (fun m => some m.user.id) ranks guild.members named.text (some bob) ∧
      mentioned.member console.directories = .ok (some ann) ∧
      RefersTo .user (fun m => some m.user.id) ranks guild.members mentioned.text (some ann) ∧
      RefersTo .user (fun u => some u.id) [fun u => some u.tag, fun u => some u.username]
        [ann.user, bob.user] named.text (some bob.user) ∧
      named.channel console.directories [.text] = .ok none := by
  intro ann bob guild console named mentioned ranks
  obtain ⟨hguild, hclient, -, hkinds, -⟩ := lookups_ranked console named
  obtain ⟨-, -, hmember, -⟩ := hguild guild rfl
  obtain ⟨-, -, hmentioned, -⟩ := (lookups_ranked console mentioned).1 guild rfl
  have hm : mentioned.member console.directories = .ok (some ann) := by decide +kernel
  have hc : named.channel console.directories [] =
      .ok (some ⟨⟨10000000000000003⟩, "bob".toList, .voice⟩) := by decide +kernel
  refine ⟨(hmember _).mp (by decide +kernel), hm, (hmentioned _).mp hm,
    (hclient _ rfl _).mp (by decide +kernel), ?_⟩
  rw [hkinds _ (List.cons_ne_nil _ _), hc]
  rfl

end Argument

end ChatCommand
