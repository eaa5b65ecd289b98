import ChatCommand.Proofs.Template.Grammar
import ChatCommand.Proofs.Text.Spacing
import ChatCommand.Template.Basic

/-! # Printing templates

Canonical segments are printed and read again. These are all the segment lists that templates have,
and a template is the sequence of the slices that its segments were read from.
-/

namespace ChatCommand

open Text

theorem Coercion.trim_name (coercion : Coercion) : trim coercion.name = coercion.name := by
  cases coercion <;> decide

theorem Coercion.braceless_name (coercion : Coercion) :
    Template.Braceless coercion.name := by
  cases coercion <;> decide

namespace Template

namespace Segment

/-- Texts are not empty and hold no opening. Names are not empty, have no blank at either end, and
hold no brace and no colon. -/
def WellFormed : Segment → Prop
  | text t => t ≠ [] ∧ ¬ opening <:+: t
  | key name _ => name.Tight ∧ ∀ c ∈ name, c ≠ '{' ∧ c ≠ '}' ∧ c ≠ ':'

inductive ReadFrom : Segment → Text → Prop where
  | text (t : Text) : ReadFrom (text t) t
  | key {body name : Text} {coercion : Coercion} : Braceless body →
      Denotes body name coercion → ReadFrom (key name coercion) (opening ++ (body ++ ['}']))

def part : Segment → Part
  | text t => .text t
  | key name coercion => .key (name ++ ':' :: coercion.name)

end Segment

/-- Well-formed segments without two texts next to each other. -/
structure Canonical (segments : List Segment) : Prop where
  wellFormed : ∀ s ∈ segments, s.WellFormed
  apart : segments.IsChain fun s t => s.key? ≠ none ∨ t.key? ≠ none

variable {body name : Text} {coercion : Coercion} {segments : List Segment} {parts : List Part}
  {template : Template}

theorem spell_map_part (segments : List Segment) :
    spell (segments.map Segment.part) = print segments := by
  induction segments with
  | nil => rfl
  | cons s segments ih =>
    have hs : s.part.spell = s.print := by
      cases s with
      | text t => rfl
      | key name coercion => simp [Segment.part, Part.spell, Segment.print, opening]
    rw [List.map_cons, spell_cons, hs, ih]
    rfl

theorem Segment.WellFormed.part {s : Segment} (h : s.WellFormed) :
    s.part.WellFormed ∧ s.part.segment = .ok s := by
  cases s with
  | text t => exact ⟨h, rfl⟩
  | key name coercion =>
    obtain ⟨ht, hc⟩ := h
    constructor
    · have hn : Braceless name := fun c hm => ⟨(hc c hm).1, (hc c hm).2.1⟩
      exact List.forall_mem_append.mpr
        ⟨hn, List.forall_mem_cons.mpr ⟨by decide, coercion.braceless_name⟩⟩
    · have hd : Denotes (name ++ ':' :: coercion.name) (trim name) coercion :=
        .coerced (fun hm => (hc _ hm).2.2 rfl) coercion.trim_name
      rw [ht.trim_eq] at hd
      exact readKey_eq_ok_iff.mpr ⟨name, coercion, hd, ht.ne_nil, rfl⟩

theorem body?_part_ne_none_iff {s : Segment} : s.part.body? ≠ none ↔ s.key? ≠ none := by
  cases s <;> simp [Segment.part, Part.body?, Segment.key?]

theorem Canonical.ofBody_print (h : Canonical segments) :
    ofBody (print segments) = .ok ⟨print segments, segments⟩ := by
  refine ofBody_eq_ok_iff.mpr ⟨rfl, segments.map Segment.part, ⟨?_, ?_⟩, spell_map_part _, ?_⟩
  · exact List.forall_mem_map.mpr fun s hs => (h.wellFormed s hs).part.1
  · simp only [List.isChain_map, body?_part_ne_none_iff]
    exact h.apart
  · exact List.forall₂_map_left_iff.mpr <| List.forall₂_same.mpr fun s hs =>
      (h.wellFormed s hs).part.2

theorem wellFormed_key_trim {t : Text} (hn : trim t ≠ []) (hc : ':' ∉ t)
    (hb : Braceless t) : (Segment.key (trim t) coercion).WellFormed := by
  refine ⟨tight_trim hn, fun c hm => ?_⟩
  have hm := mem_of_mem_trim hm
  exact ⟨(hb c hm).1, (hb c hm).2, fun he => hc (he ▸ hm)⟩

theorem Denotes.wellFormed (h : Denotes body name coercion) (hn : name ≠ [])
    (hb : Braceless body) : (Segment.key name coercion).WellFormed := by
  cases h with
  | name hc => exact wellFormed_key_trim hn hc hb
  | coerced hl _ => exact wellFormed_key_trim hn hl (List.forall_mem_append.mp hb).1

theorem segment_of_part {p : Part} {s : Segment} (h : p.segment = .ok s) (hw : p.WellFormed) :
    s.WellFormed ∧ s.ReadFrom p.spell ∧ (p.body? ≠ none → s.key? ≠ none) := by
  cases p with
  | text t =>
    obtain rfl := Except.ok.inj h
    exact ⟨hw, .text t, id⟩
  | key body =>
    obtain ⟨name, coercion, hd, hn, rfl⟩ := readKey_eq_ok_iff.mp h
    exact ⟨hd.wellFormed hn hw, .key hw hd, fun _ => Option.some_ne_none name⟩

theorem canonical_of_isSplit (hs : IsSplit parts)
    (hf : List.Forall₂ (·.segment = .ok ·) parts segments) :
    Canonical segments ∧ List.Forall₂ Segment.ReadFrom segments (parts.map Part.spell) := by
  induction hf with
  | nil => exact ⟨⟨nofun, .nil⟩, .nil⟩
  | @cons p s parts segments hp hf ih =>
    obtain ⟨hw, ha, hparts⟩ := isSplit_cons_iff.mp hs
    obtain ⟨hsw, hsr, hsk⟩ := segment_of_part hp hw
    obtain ⟨⟨hws, has⟩, hr⟩ := ih hparts
    refine ⟨⟨List.forall_mem_cons.mpr ⟨hsw, hws⟩, List.isChain_cons.mpr ⟨?_, has⟩⟩, .cons hsr hr⟩
    intro t ht
    cases hf with
    | nil => cases ht
    | @cons q u _ _ hq _ =>
      obtain rfl := Option.some.inj ht
      obtain ⟨-, -, huk⟩ := segment_of_part hq (hparts.wellFormed q List.mem_cons_self)
      exact (ha q rfl).imp hsk huk

/-- Printing canonical segments and reading the text gives them back. The segments of any template
are canonical, and the slices that they were read from make up the template. -/
theorem ofBody_print_canonical :
    (∀ segments, Canonical segments →
      ofBody (print segments) = .ok ⟨print segments, segments⟩) ∧
    ∀ text template, ofBody text = .ok template → Canonical template.segments ∧
      ∃ slices, List.Forall₂ Segment.ReadFrom template.segments slices ∧ slices.flatten = text := by
  refine ⟨fun segments h => h.ofBody_print, fun text template h => ?_⟩
  obtain ⟨-, parts, hs, rfl, hf⟩ := ofBody_eq_ok_iff.mp h
  obtain ⟨hc, hr⟩ := canonical_of_isSplit hs hf
  exact ⟨hc, _, hr, List.flatMap_def.symm⟩

theorem ofBody_print_canonical_dollar :
    ∃ template, ofBody "${ a }$${b:id}".toList = .ok template ∧ Canonical template.segments ∧
      (∃ slices, List.Forall₂ Segment.ReadFrom template.segments slices ∧
        slices.flatten = "${ a }$${b:id}".toList) ∧
      ofBody "${a:string}$${b:id}".toList =
        .ok ⟨"${a:string}$${b:id}".toList, template.segments⟩ := by
  let template : Template := ⟨"${ a }$${b:id}".toList,
    [.key ['a'] .string, .text ['$'], .key ['b'] .id]⟩
  have h : ofBody "${ a }$${b:id}".toList = .ok template := by decide +kernel
  obtain ⟨hc, hs⟩ := ofBody_print_canonical.2 _ _ h
  exact ⟨template, h, hc, hs, ofBody_print_canonical.1 _ hc⟩

end Template

end ChatCommand
