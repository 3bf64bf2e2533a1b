import Stencil.Proofs.Encoding

/-! Decoding UTF-8 as it comes in is exact.

However the bytes are delivered and however many characters are asked for at a time, a source hands out
the longest text that its bytes begin with, piece by piece, and then always says the same: that it is at
its end, if there are no other bytes, or else why they are refused (`Utf8Source.exact_of_reads`). -/
namespace Stencil

/-- What a read of characters is answered with. -/
abbrev Answer := Except String (List Char)

def Answer.given : Answer → List Char
  | .ok cs => cs
  | .error _ => []

/-- The characters that some answers hand out. -/
def handed (answers : List Answer) : List Char :=
  answers.flatMap Answer.given

/-- The answers to reads of these sizes, and the source after them. -/
def CharSource.reads {σ : Type} [CharSource σ] (source : σ) : (limits : List Nat) → List Answer × σ
  | [] => ([], source)
  | limit :: limits =>
    let (answer, source) := CharSource.read source limit
    let (answers, source) := reads source limits
    (answer :: answers, source)

/-! ### Answers in a row -/

/-- The answers hand out a text in pieces, and once it is handed out they are all the same. -/
inductive Answered (ending : Answer) : (text : List Char) → List Answer → Prop
  | nil {text : List Char} : Answered ending text []
  | piece {cs rest : List Char} {answers : List Answer} (hne : cs ≠ [])
      (h : Answered ending rest answers) : Answered ending (cs ++ rest) (.ok cs :: answers)
  | ending {answers : List Answer} (h : Answered ending [] answers) :
      Answered ending [] (ending :: answers)

namespace Answered
variable {ending answer : Answer} {text : List Char} {answers before after : List Answer}

/-- Later answers hand out what the ones before them left. -/
theorem behind (hgiven : ending.given = []) (h : Answered ending text (before ++ after)) :
    ∃ rest, text = handed before ++ rest ∧ Answered ending rest after := by
  induction before generalizing text with
  | nil => exact ⟨text, rfl, h⟩
  | cons answer before ih =>
    cases h with
    | piece hne h =>
      obtain ⟨rest, rfl, hrest⟩ := ih h
      exact ⟨rest, (List.append_assoc ..).symm, hrest⟩
    | ending h =>
      obtain ⟨rest, hr, hrest⟩ := ih h
      refine ⟨rest, ?_, hrest⟩
      rw [handed, List.flatMap_cons, hgiven]
      exact hr

/-- Behind the text nothing else is answered than the ending. -/
theorem eq_ending (h : Answered ending [] answers) : ∀ answer ∈ answers, answer = ending := by
  generalize ht : ([] : List Char) = text at h
  induction h with
  | nil => exact fun _ h => absurd h List.not_mem_nil
  | piece hne => exact absurd (List.append_eq_nil_iff.1 ht.symm).1 hne
  | ending h ih => exact List.forall_mem_cons.2 ⟨rfl, ih rfl⟩

/-- An answer that hands out nothing is the ending, and comes behind the text. -/
theorem of_given_eq_nil (h : Answered ending text (answer :: after)) (ha : answer.given = []) :
    answer = ending ∧ text = [] ∧ Answered ending [] after := by
  cases h with
  | piece hne => exact absurd ha hne
  | ending h => exact ⟨rfl, rfl, h⟩

end Answered

/-- The answers hand out a text that stands at the front of some bytes, and say what comes behind it. -/
structure DecodesExactly (bytes : List UInt8) (text : List Char) (answers : List Answer) : Prop where
  /-- What is handed out is always the front of the text. -/
  handed_isPrefix : ∀ before after, answers = before ++ after → handed before <+: text
  /-- The end is reported only if the bytes are those of the text, and it is handed out. -/
  ended : ∀ before after, answers = before ++ .ok [] :: after →
    Text.utf8Bytes text = bytes ∧ handed before = text
  /-- If they are not, a read fails just if the text is handed out. -/
  refused : Text.utf8Bytes text ≠ bytes → ∀ before answer after, answers = before ++ answer :: after →
    ((∃ e, answer = .error e) ↔ handed before = text)
  /-- It fails because the bytes end inside a character or because no character goes on there. -/
  failure : ∀ e, .error e ∈ answers → ∃ behind, bytes = Text.utf8Bytes text ++ behind ∧
    behind ≠ [] ∧ (Text.CutOff behind ∧ e = Utf8Source.endsInside ∨
      ¬Text.CutOff behind ∧ e = Utf8Source.notUtf8)
  /-- After a failure every read fails like that. -/
  stays : ∀ before e after, answers = before ++ .error e :: after →
    ∀ answer ∈ after, answer = .error e

/-- What is answered behind a text whose bytes are followed by others, or by none. -/
def EndsBehind (behind : List UInt8) (ending : Answer) : Prop :=
  (behind = [] ∧ ending = .ok []) ∨ (behind ≠ [] ∧ ∃ e, ending = .error e ∧
    (Text.CutOff behind ∧ e = Utf8Source.endsInside ∨
      ¬Text.CutOff behind ∧ e = Utf8Source.notUtf8))

namespace EndsBehind
variable {behind : List UInt8} {ending : Answer}

theorem given_eq_nil (h : EndsBehind behind ending) : ending.given = [] := by
  rcases h with ⟨_, rfl⟩ | ⟨_, e, rfl, _⟩ <;> rfl

theorem eq_nil (h : EndsBehind behind (.ok [])) : behind = [] := by
  rcases h with ⟨hb, _⟩ | ⟨_, e, he, _⟩
  · exact hb
  · cases he

theorem of_error {e : String} (h : EndsBehind behind (.error e)) : behind ≠ [] ∧
    (Text.CutOff behind ∧ e = Utf8Source.endsInside ∨
      ¬Text.CutOff behind ∧ e = Utf8Source.notUtf8) := by
  rcases h with ⟨_, he⟩ | ⟨hb, e', he, hcase⟩
  · cases he
  · cases he
    exact ⟨hb, hcase⟩

theorem exists_error (h : EndsBehind behind ending) (hb : behind ≠ []) : ∃ e, ending = .error e := by
  rcases h with ⟨hn, _⟩ | ⟨_, e, he, _⟩
  · exact absurd hn hb
  · exact ⟨e, he⟩

end EndsBehind

theorem Answered.decodesExactly {ending : Answer} {text : List Char} {answers : List Answer}
    {bytes behind : List UInt8} (h : Answered ending text answers)
    (hb : bytes = Text.utf8Bytes text ++ behind) (he : EndsBehind behind ending) :
    DecodesExactly bytes text answers where
  handed_isPrefix before after ha := by
    obtain ⟨rest, rfl, _⟩ := (ha ▸ h).behind he.given_eq_nil
    exact List.prefix_append ..
  ended before after ha := by
    obtain ⟨rest, rfl, hrest⟩ := (ha ▸ h).behind he.given_eq_nil
    obtain ⟨hending, rfl, _⟩ := hrest.of_given_eq_nil rfl
    rw [← hending] at he
    rw [hb, he.eq_nil, List.append_nil, List.append_nil]
    exact ⟨rfl, rfl⟩
  refused hne before answer after ha := by
    obtain ⟨rest, rfl, hrest⟩ := (ha ▸ h).behind he.given_eq_nil
    constructor
    · rintro ⟨e, rfl⟩
      obtain ⟨_, rfl, _⟩ := hrest.of_given_eq_nil rfl
      rw [List.append_nil]
    · intro hall
      rw [List.append_right_eq_self.1 hall.symm] at hrest
      rw [hrest.eq_ending answer List.mem_cons_self]
      refine he.exists_error fun hn => hne ?_
      rw [hb, hn, List.append_nil]
  failure e hm := by
    obtain ⟨before, after, ha⟩ := List.append_of_mem hm
    obtain ⟨rest, rfl, hrest⟩ := (ha ▸ h).behind he.given_eq_nil
    obtain ⟨hending, _, _⟩ := hrest.of_given_eq_nil rfl
    rw [← hending] at he
    exact ⟨behind, hb, he.of_error⟩
  stays before e after ha := by
    obtain ⟨rest, rfl, hrest⟩ := (ha ▸ h).behind he.given_eq_nil
    obtain ⟨hending, _, hafter⟩ := hrest.of_given_eq_nil rfl
    rw [hending]
    exact hafter.eq_ending

namespace Utf8Source

/-- What reads are answered with behind the text of a source. -/
def lastAnswer (source : Utf8Source) : Answer :=
  match endingOf (Text.utf8Behind source.ahead) source.failure with
  | none => .ok []
  | some e => .error e

theorem answered_reads (source : Utf8Source) {limits : List Nat}
    (hl : ∀ limit ∈ limits, 0 < limit) :
    Answered source.lastAnswer (Text.utf8Chars source.ahead) (CharSource.reads source limits).1 := by
  induction limits generalizing source with
  | nil => exact .nil
  | cons limit limits ih =>
    obtain ⟨hlimit, hl⟩ := List.forall_mem_cons.1 hl
    cases hr : CharSource.read source limit with
    | mk answer source' =>
      have hp := pulls_read hr hlimit
      have hlast : source'.lastAnswer = source.lastAnswer := by
        rw [lastAnswer, lastAnswer, hp.behind, hp.failure]
      have hrest := ih source' hl
      rw [hlast] at hrest
      have hreads : (CharSource.reads source (limit :: limits)).1 =
          answer :: (CharSource.reads source' limits).1 := by
        rw [CharSource.reads, hr]
      rw [hreads]
      cases answer with
      | error e =>
        obtain ⟨hchars, hchars', hending⟩ := hp.of_error e rfl
        have he : source.lastAnswer = .error e := by rw [lastAnswer, hending]
        rw [hchars'] at hrest
        rw [hchars, ← he]
        exact .ending hrest
      | ok cs =>
        have hchars := hp.chars cs rfl
        cases cs with
        | nil =>
          obtain ⟨hnone, hending⟩ := hp.of_end rfl
          have he : source.lastAnswer = .ok [] := by rw [lastAnswer, hending]
          rw [List.nil_append] at hchars
          rw [← hchars, hnone] at hrest
          rw [hnone, ← he]
          exact .ending hrest
        | cons c cs =>
          rw [hchars]
          exact .piece (List.cons_ne_nil c cs) hrest

/-- Without a failure of the reader, the bytes behind the text say how it ends. -/
theorem endsBehind_lastAnswer {source : Utf8Source} (hf : source.failure = none) :
    EndsBehind (Text.utf8Behind source.ahead) source.lastAnswer := by
  have hno := Text.no_char_utf8Behind source.ahead
  unfold lastAnswer
  rw [hf]
  generalize Text.utf8Behind source.ahead = behind at hno ⊢
  cases hfront : Text.utf8Front behind with
  | char c rest => exact absurd hfront (hno c rest)
  | invalid =>
    have he : endingOf behind none = some notUtf8 := by rw [endingOf, hfront]
    rw [he]
    refine .inr ⟨?_, notUtf8, rfl, .inr ⟨Text.not_cutOff_of_invalid hfront, rfl⟩⟩
    rintro rfl
    cases hfront
  | incomplete =>
    have hvalid : Text.utf8Front behind ≠ .invalid := by
      intro hinvalid
      cases hfront.symm.trans hinvalid
    rw [endingOf_of_ne_invalid hvalid, Option.none_or]
    cases behind with
    | nil => exact .inl ⟨rfl, rfl⟩
    | cons byte rest =>
      have hne := List.cons_ne_nil byte rest
      exact .inr ⟨hne, endsInside, rfl, .inl ⟨Text.cutOff_of_incomplete hfront hne, rfl⟩⟩

/-- **Decoding is exact.** However some bytes are delivered, in whatever pieces and with whatever
interruptions, and however many characters are asked for at a time: the longest text that the bytes
begin with is handed out, and then the end is reported, or the other bytes are refused for ever. -/
theorem exact_of_reads (bytes : List UInt8) (plan : List Delivery) :
    ∃ text, Text.IsLongest bytes text ∧ ∀ limits : List Nat, (∀ limit ∈ limits, 0 < limit) →
      DecodesExactly bytes text
        (CharSource.reads ({ reader := { data := bytes, plan } } : Utf8Source) limits).1 := by
  refine ⟨Text.utf8Chars bytes, Text.isLongest_utf8Chars bytes, fun limits hl => ?_⟩
  let source : Utf8Source := { reader := { data := bytes, plan } }
  have hanswered : Answered source.lastAnswer (Text.utf8Chars bytes) _ := answered_reads source hl
  have hends : EndsBehind (Text.utf8Behind bytes) source.lastAnswer :=
    endsBehind_lastAnswer (show source.failure = none from rfl)
  exact hanswered.decodesExactly (Text.utf8Bytes_utf8Chars bytes).symm hends

/-- A character in three deliveries with an interruption between them, and one that is cut off. -/
theorem exact_of_cut_characters :
    let bytes : List UInt8 := [0x61, 0xE2, 0x86, 0x92, 0xC3]
    let plan : List Delivery := [.upTo 2, .interrupted, .upTo 1, .upTo 1, .interrupted]
    let limits := [3, 1, 2, 1]
    (∀ limit ∈ limits, 0 < limit) ∧ ∃ text, Text.IsLongest bytes text ∧
      DecodesExactly bytes text
        (CharSource.reads ({ reader := { data := bytes, plan } } : Utf8Source) limits).1 := by
  intro bytes plan limits
  have hl : ∀ limit ∈ limits, 0 < limit := by decide
  obtain ⟨text, hlongest, hexact⟩ := exact_of_reads bytes plan
  exact ⟨hl, text, hlongest, hexact limits hl⟩

end Utf8Source

end Stencil
