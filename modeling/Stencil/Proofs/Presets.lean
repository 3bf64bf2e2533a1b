import Mathlib.Data.List.Chain
import Stencil.Delimiter.Style
import Stencil.Proofs.Closing
import Stencil.Proofs.Words

/-! Texts that presets leave alone.

Three of the preset pairs of delimiters are made of braces, or of an angle bracket and a percent sign.
So they are not seen in a text in which, outside quotes, there is no brace and neither a percent sign
behind `<` nor a `>` behind a percent sign (`Tame`), not even if the text ends where the beginning of a
delimiter follows (`DelimiterStyle.IsPreset.clear_right`, `DelimiterStyle.IsPreset.clear_left`). -/
namespace Stencil

/-- One of the presets that are made of characters which no name and no number has in it. -/
def DelimiterStyle.IsPreset (style : DelimiterStyle) : Prop :=
  style = doubleBrace ∨ style = dollarBrace ∨ style = anglePercent

/-- The two characters are neither the left nor the right one of the delimiters with a percent sign. -/
def Apart (a b : Char) : Prop :=
  ¬(a = '<' ∧ b = '%') ∧ ¬(a = '%' ∧ b = '>')

theorem apart_of_left {a : Char} (hl : a ≠ '<') (hp : a ≠ '%') (b : Char) : Apart a b :=
  ⟨fun h => hl h.1, fun h => hp h.1⟩

theorem apart_of_right {b : Char} (hp : b ≠ '%') (hg : b ≠ '>') (a : Char) : Apart a b :=
  ⟨fun h => hp h.2, fun h => hg h.2⟩

/-- Two characters in a row are a piece of a text only if they are in the relation that the text is a
chain of. -/
theorem rel_of_isInfix {r : Char → Char → Prop} {a b : Char} {text : List Char} (h : text.IsChain r)
    (hi : [a, b] <:+: text) : r a b := by
  obtain ⟨front, back, rfl⟩ := hi
  have hpair := (List.isChain_append.1 (List.isChain_append.1 h).1).2.1
  exact (List.isChain_cons_cons.1 hpair).1

/-- A text that goes on with one more character: of two characters in a row, it has the first one in
it. -/
theorem mem_of_pair_isInfix {a b c : Char} {text : List Char} (h : [a, b] <:+: text ++ [c]) :
    a ∈ text := by
  rcases List.infix_concat_iff.1 h with ⟨front, hfront⟩ | hinfix
  · have hcut : front ++ [a] ++ [b] = text ++ [c] := by rw [List.append_assoc]; exact hfront
    obtain ⟨rfl, -⟩ := List.append_inj' hcut rfl
    exact List.mem_append_right _ (List.mem_singleton.2 rfl)
  · exact hinfix.subset (List.mem_cons_self ..)

theorem not_isInfix_of_notMem {a : Char} {piece text : List Char} (ha : a ∈ piece) (h : a ∉ text) :
    ¬piece <:+: text :=
  fun hi => h (hi.subset ha)

/-- Outside quotes there is no brace in the text, and the percent sign stands neither behind `<` nor in
front of `>`; nor does the text end in `<`. -/
structure Tame (text : List Char) : Prop where
  balanced : Quoting.Balanced text
  no_left : '{' ∉ Quoting.outside.mask text
  no_right : '}' ∉ Quoting.outside.mask text
  apart : (Quoting.outside.mask text ++ ['%']).IsChain Apart

/-- Nor does anything come about if an angle bracket follows. -/
theorem Tame.apart_angle {text : List Char} (h : Tame text) :
    (Quoting.outside.mask text ++ ['<']).IsChain Apart :=
  List.isChain_append.2 ⟨(List.isChain_append.1 h.apart).1, List.isChain_singleton _, fun a _ b hb => by
    cases hb
    exact apart_of_right (by decide) (by decide) a⟩

theorem tame_nil : Tame [] where
  balanced := rfl
  no_left := List.not_mem_nil
  no_right := List.not_mem_nil
  apart := List.isChain_singleton _

/-- The characters that the delimiters are made of, but for those that count only next to them. -/
def harms : List Char :=
  ['<', '%', '{', '}']

/-- No character is a quote, or does harm. -/
def Harmless (text : List Char) : Prop :=
  ∀ c ∈ text, c ≠ Quoting.mark ∧ c ∉ harms

instance (text : List Char) : Decidable (Harmless text) :=
  List.decidableBAll _ text

theorem isChain_append_of_forall {r : Char → Char → Prop} {front back : List Char}
    (hf : ∀ a ∈ front, ∀ b, r a b) (hb : back.IsChain r) : (front ++ back).IsChain r := by
  induction front with
  | nil => exact hb
  | cons a front ih =>
    obtain ⟨ha, hf⟩ := List.forall_mem_cons.1 hf
    exact List.isChain_cons.2 ⟨fun b _ => ha b, ih hf⟩

/-- What stands in quotes does no harm, nor do most other characters. -/
theorem Tame.append {front text : List Char} (h : Tame text) (hb : Quoting.Balanced front)
    (hf : ∀ c ∈ Quoting.outside.mask front, c ∉ harms) : Tame (front ++ text) where
  balanced := hb.append h.balanced
  no_left := by
    rw [hb.mask_append]
    exact List.not_mem_append (fun hc => hf '{' hc (by decide)) h.no_left
  no_right := by
    rw [hb.mask_append]
    exact List.not_mem_append (fun hc => hf '}' hc (by decide)) h.no_right
  apart := by
    rw [hb.mask_append, List.append_assoc]
    refine isChain_append_of_forall (fun a ha => ?_) h.apart
    exact apart_of_left (fun he => hf a ha (he ▸ by decide)) (fun he => hf a ha (he ▸ by decide))

/-- A text without quotes is seen as it stands. -/
theorem Tame.append_unquoted {front text : List Char} (h : Tame text) (hf : Harmless front) :
    Tame (front ++ text) := by
  have hmark : Quoting.mark ∉ front := fun hm => (hf _ hm).1 rfl
  obtain ⟨hbalanced, hmask⟩ := Quoting.of_notMem_mark hmark
  exact h.append hbalanced fun c hc => (hf c (hmask ▸ hc)).2

theorem Tame.cons_unquoted {c : Char} {text : List Char} (h : Tame text)
    (hc : c ≠ Quoting.mark ∧ c ∉ harms) : Tame (c :: text) :=
  h.append_unquoted (List.forall_mem_singleton.2 hc)

/-- An angle bracket or a percent sign does no harm either in front of a character that it makes no
delimiter with. -/
theorem Tame.cons {c d : Char} {text : List Char} (h : Tame (d :: text)) (hc : c ∈ ['<', '%'])
    (ha : Apart c d) : Tame (c :: d :: text) := by
  have hmark : c ≠ Quoting.mark := by
    rintro rfl
    exact absurd hc (by decide)
  have hmask : Quoting.outside.mask (c :: d :: text) = c :: Quoting.outside.mask (d :: text) := by
    rw [Quoting.mask, Quoting.next, if_neg hmark, Quoting.shown_outside]
  refine ⟨?_, ?_, ?_, ?_⟩
  · show (Quoting.outside.next c).after (d :: text) = .outside
    rw [Quoting.next, if_neg hmark]
    exact h.balanced
  · rw [hmask]
    exact List.not_mem_cons_of_ne_of_not_mem (fun he => absurd (he ▸ hc) (by decide)) h.no_left
  · rw [hmask]
    exact List.not_mem_cons_of_ne_of_not_mem (fun he => absurd (he ▸ hc) (by decide)) h.no_right
  · rw [hmask]
    exact List.isChain_cons_cons.2 ⟨ha, h.apart⟩

namespace DelimiterStyle.IsPreset
open CloseScan
variable {style : DelimiterStyle} {text : List Char}

theorem proper (hs : style.IsPreset) : Proper style.left.toList style.right.toList := by
  rcases hs with rfl | rfl | rfl <;> constructor <;> decide

theorem tight_left (hs : style.IsPreset) : Text.Tight style.left.toList := by
  rcases hs with rfl | rfl | rfl <;> exact Text.Solid.tight (by decide) (by decide)

theorem tight_right (hs : style.IsPreset) : Text.Tight style.right.toList := by
  rcases hs with rfl | rfl | rfl <;> exact Text.Solid.tight (by decide) (by decide)

/-- A left delimiter begins with a sign. -/
theorem exists_sign (hs : style.IsPreset) :
    ∃ sign ∈ Text.signs, style.left.toList.head? = some sign := by
  rcases hs with rfl | rfl | rfl <;> exact ⟨_, by decide, rfl⟩

theorem clear_right (hs : style.IsPreset) (h : Tame text) :
    Clear style.left.toList style.right.toList style.right.toList text := by
  refine ⟨h.balanced, ?_, ?_⟩
  · rcases hs with rfl | rfl | rfl
    · exact fun hi => h.no_left (mem_of_pair_isInfix hi)
    · exact not_isInfix_of_notMem (a := '{') (by decide) (List.not_mem_append h.no_left (by decide))
    · exact fun hi => (rel_of_isInfix h.apart hi).1 ⟨rfl, rfl⟩
  · rcases hs with rfl | rfl | rfl
    · exact fun hi => h.no_right (mem_of_pair_isInfix hi)
    · exact not_isInfix_of_notMem (a := '}') (by decide) (List.not_mem_append h.no_right (by decide))
    · exact fun hi => (rel_of_isInfix h.apart hi).2 ⟨rfl, rfl⟩

theorem clear_left (hs : style.IsPreset) (h : Tame text) :
    Clear style.left.toList style.right.toList style.left.toList text := by
  refine ⟨h.balanced, ?_, ?_⟩
  · rcases hs with rfl | rfl | rfl
    · exact fun hi => h.no_left (mem_of_pair_isInfix hi)
    · exact not_isInfix_of_notMem (a := '{') (by decide) (List.not_mem_append h.no_left (by decide))
    · exact fun hi => (rel_of_isInfix h.apart_angle hi).1 ⟨rfl, rfl⟩
  · rcases hs with rfl | rfl | rfl
    · exact fun hi => h.no_right (mem_of_pair_isInfix hi)
    · exact not_isInfix_of_notMem (a := '}') (by decide) (List.not_mem_append h.no_right (by decide))
    · exact fun hi => (rel_of_isInfix h.apart_angle hi).2 ⟨rfl, rfl⟩

/-- A left delimiter does not bring about a right one. -/
theorem not_right_append_left (hs : style.IsPreset) (h : Tame text) :
    ¬style.right.toList <:+: Quoting.outside.mask text ++ style.left.toList := by
  rcases hs with rfl | rfl | rfl
  · exact not_isInfix_of_notMem (a := '}') (by decide) (List.not_mem_append h.no_right (by decide))
  · exact not_isInfix_of_notMem (a := '}') (by decide) (List.not_mem_append h.no_right (by decide))
  · intro hi
    have hcut : Quoting.outside.mask text ++ anglePercent.left.toList =
        Quoting.outside.mask text ++ ['<'] ++ ['%'] := (List.append_assoc _ ['<'] ['%']).symm
    rw [hcut] at hi
    rcases List.infix_concat_iff.1 hi with hsuffix | hinfix
    · -- Its last character is not the percent sign.
      have hlast := hsuffix.getLast (List.cons_ne_nil _ _)
      rw [List.getLast_append_singleton] at hlast
      exact absurd hlast (by decide)
    · exact (rel_of_isInfix h.apart_angle hinfix).2 ⟨rfl, rfl⟩

end DelimiterStyle.IsPreset

end Stencil
