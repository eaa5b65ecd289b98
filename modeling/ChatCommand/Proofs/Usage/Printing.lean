import ChatCommand.Proofs.Usage.Greedy

/-! # Printing usages

Well-formed tokens without a repeated name are printed with blanks between them and read again.
These are all the token lists that patterns are compiled to.
-/

namespace ChatCommand.Usage

open Text

structure Declarable (tokens : List Token) : Prop where
  wellFormed : ∀ token ∈ tokens, token.WellFormed
  nodup : (tokens.filterMap Token.key?).Nodup

/-- The pattern has the forms of the tokens in order, with blanks around them and at least one
between two. -/
def Prints (tokens : List Token) (pattern : Text) : Prop :=
  ∃ lead forms, lead.AllBlank ∧ Joined (tokens.map Token.print) forms ∧ pattern = lead ++ forms

variable {pattern : Text} {tokens : List Token} {usage : Usage}

theorem prints_print (tokens : List Token) : Prints tokens (print tokens) :=
  ⟨[], print tokens, allBlank_nil, joined_intercalate _, rfl⟩

theorem Token.behind_of_isBlank (token : Token) {t : Text} (h : ∀ c ∈ t.head?, isBlank c = true) :
    token.behind t = t := by
  have hb : behindWord t = t := by
    cases t with
    | nil => exact behindWord_nil
    | cons c t => exact behindWord_of_isBlank (h c rfl) t
  cases token with
  | literal options => exact hb
  | flag name => exact hb
  | param name optional spread => rfl
  | ellipsis => rfl

theorem longest_print_append {token : Token} (hw : token.WellFormed) {t : Text}
    (ht : ∀ c ∈ t.head?, isBlank c = true) : token.Longest (token.print ++ t) t := by
  obtain ⟨found, hf, he⟩ := token?_print_append hw t
  have hb := token.behind_of_isBlank ht
  obtain rfl := he hb
  rw [hb] at hf
  exact token?_eq_some_iff.mp hf

theorem Reads.blanks_append {blanks t rest : Text} (hb : blanks.AllBlank)
    (h : Reads t tokens rest) : Reads (blanks ++ t) tokens rest := by
  induction blanks with
  | nil => exact h
  | cons c blanks ih =>
    obtain ⟨hc, hb⟩ := List.forall_mem_cons.mp hb
    exact .blank hc (ih hb)

theorem reads_of_joined {forms : Text} (hw : ∀ token ∈ tokens, token.WellFormed)
    (h : Joined (tokens.map Token.print) forms) : Reads forms tokens [] := by
  induction tokens generalizing forms with
  | nil =>
    cases h
    exact .done []
  | cons token tokens ih =>
    obtain ⟨ht, hts⟩ := List.forall_mem_cons.mp hw
    cases h with
    | cons hb hn hj =>
      exact .token (longest_print_append ht (hj.isBlank_of_mem_head? hb hn))
        ((ih hts hj).blanks_append hb)

theorem Prints.ofPattern_eq (h : Prints tokens pattern) (hd : Declarable tokens) :
    ofPattern pattern = .ok ⟨pattern, tokens⟩ := by
  obtain ⟨lead, forms, hl, hj, rfl⟩ := h
  exact ofPattern_eq_ok_iff.mpr ⟨rfl, (reads_of_joined hd.wellFormed hj).blanks_append hl, hd.nodup⟩

theorem declarable_of_ofPattern (h : ofPattern pattern = .ok usage) : Declarable usage.tokens :=
  ⟨fun _ => wellFormed_of_mem_tokens h, nodup_keys h⟩

/-- Every printing of a declarable token list is compiled to that list. Patterns are compiled to
declarable lists only, so printing what they are compiled to leads back to it. -/
theorem ofPattern_prints :
    (∀ tokens pattern, Declarable tokens → Prints tokens pattern →
      ofPattern pattern = .ok ⟨pattern, tokens⟩) ∧
    ∀ pattern usage, ofPattern pattern = .ok usage →
      Declarable usage.tokens ∧ Prints usage.tokens (print usage.tokens) ∧
      ∀ printed, Prints usage.tokens printed → ofPattern printed = .ok ⟨printed, usage.tokens⟩ := by
  refine ⟨fun tokens pattern hd hp => hp.ofPattern_eq hd, fun pattern usage h => ?_⟩
  have hd := declarable_of_ofPattern h
  exact ⟨hd, prints_print _, fun printed hp => hp.ofPattern_eq hd⟩

theorem ofPattern_prints_hyphens :
    ∃ tokens, ofPattern "a|-b --x|y[n...]...".toList = .ok ⟨"a|-b --x|y[n...]...".toList, tokens⟩ ∧
      Declarable tokens ∧ print tokens = "a|-b --x|y [n...] ...".toList ∧
      ofPattern "\ta|-b\n--x|y  [n...] ... ".toList =
        .ok ⟨"\ta|-b\n--x|y  [n...] ... ".toList, tokens⟩ := by
  let tokens : List Token := [.literal [['a'], ['-', 'b']], .flag "-x|y".toList,
    .param ['n'] true true, .ellipsis]
  have hu : ofPattern "a|-b --x|y[n...]...".toList =
      .ok ⟨"a|-b --x|y[n...]...".toList, tokens⟩ := by
    decide +kernel
  obtain ⟨hd, -, -⟩ := ofPattern_prints.2 _ _ hu
  have hj : Joined (tokens.map Token.print) ("a|-b".toList ++ (['\n'] ++ ("--x|y".toList ++
      ([' ', ' '] ++ ("[n...]".toList ++ ([' '] ++ ("...".toList ++ ([' '] ++ [])))))))) :=
    .cons (List.all_eq_true.mp rfl) (by decide) <| .cons (List.all_eq_true.mp rfl) (by decide) <|
      .cons allBlank_space (by decide) <| .cons allBlank_space (by decide) .nil
  exact ⟨tokens, hu, hd, rfl,
    ofPattern_prints.1 tokens _ hd ⟨['\t'], _, List.all_eq_true.mp rfl, hj, rfl⟩⟩

end ChatCommand.Usage
