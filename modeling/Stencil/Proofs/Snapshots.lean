import Stencil.Proofs.Blocks
import Stencil.Proofs.Tokens

/-! Loops over items.

What an `each` goes over is settled where it is opened: from there on its block holds the items that are
still to come. Whatever tokens are interpreted in the meantime, by whatever host and with whatever
variables, the block stays where it is and loses an item only to an `/each` of its own
(`Turn.exists_leaves`, `Frames.exists_through`). So the loop takes one item after the other and then ends
(`Host.runs_over_snapshot`). -/
namespace Stencil

/-- A token that is interpreted, with the host and the state at that time. -/
structure Turn (κ : Type) where
  host : Host κ
  token : Token
  level : Nat
  /-- The offset behind the token. -/
  resume : Nat
  /-- The state but for the open blocks, which are what earlier turns made of them. -/
  state : RenderState κ

/-- An open `each` that has these items still to come. -/
def Frame.each (opener : Token) (level resume : Nat) (items : List String) : Frame where
  token := opener
  truthy := true
  live := true
  level := level
  resume := some resume
  items := some items

namespace Turn
variable {κ : Type}

def outcome (turn : Turn κ) (frames : Frames) : Host.Outcome κ Resolution :=
  turn.host.interpret turn.token turn.level turn.resume { turn.state with frames }

def leaves (turn : Turn κ) (frames : Frames) : Frames :=
  (turn.outcome frames).2.frames

/-- A turn is an `/each` of that level, and finds the block on top that lies on so many others. -/
structure ComesBack (turn : Turn κ) (level depth : Nat) (frames : Frames) : Prop where
  close : turn.token.kind = .eachClose
  level : turn.level = level
  depth : frames.length = depth + 1

instance (turn : Turn κ) (level depth : Nat) (frames : Frames) :
    Decidable (turn.ComesBack level depth frames) :=
  decidable_of_iff (turn.token.kind = .eachClose ∧ turn.level = level ∧ frames.length = depth + 1)
    ⟨fun ⟨hk, hl, hd⟩ => ⟨hk, hl, hd⟩, fun ⟨hk, hl, hd⟩ => ⟨hk, hl, hd⟩⟩

end Turn

namespace Frames
variable {κ : Type}

/-- The blocks behind turns that are taken one after the other. -/
def through (frames : Frames) (turns : List (Turn κ)) : Frames :=
  turns.foldl (fun frames turn => turn.leaves frames) frames

/-- How many of these turns come back to that block. -/
def comebacks (level depth : Nat) (frames : Frames) : List (Turn κ) → Nat
  | [] => 0
  | turn :: turns =>
    comebacks level depth (turn.leaves frames) turns +
      if turn.ComesBack level depth frames then 1 else 0

/-- Where the topmost block is another one, those below it still hold a block in its place. -/
theorem exists_below {above below rest : Frames} {frame top : Frame}
    (hf : above ++ frame :: below = top :: rest) (hne : above = [] → top ≠ frame) :
    ∃ above', rest = above' ++ frame :: below := by
  rcases List.append_eq_cons_iff.1 hf with ⟨ha, hf⟩ | ⟨above', -, hrest⟩
  · cases hf
    exact absurd rfl (hne ha)
  · exact ⟨above', hrest⟩

end Frames

namespace Turn
variable {κ : Type} {turn : Turn κ} {above below : Frames} {frame : Frame}

/-! ### One turn -/

/-- A token that does not come back to an `each` leaves its block where it is. -/
theorem exists_leaves (hk : frame.kind = .eachOpen)
    (hno : ¬turn.ComesBack frame.level below.length (above ++ frame :: below)) :
    ∃ above', turn.leaves (above ++ frame :: below) = above' ++ frame :: below := by
  have hother : ∀ {top : Frame} {kind : Token.Kind}, top.kind = kind → kind ≠ .eachOpen →
      top ≠ frame :=
    fun ht hne he => hne (ht.symm.trans ((congrArg Frame.kind he).trans hk))
  -- A loop that is closed or started over is another one, or the turn would come back.
  have hloop : ∀ {top : Frame}, ClosesLoop turn.token.kind top.kind → top.level = turn.level →
      above = [] → top ≠ frame := by
    rintro top hcloses hl rfl rfl
    rw [hk] at hcloses
    refine hno ⟨?_, hl.symm, rfl⟩
    generalize turn.token.kind = kind at hcloses
    cases hcloses
    rfl
  unfold leaves
  cases hi : turn.outcome (above ++ frame :: below) with
  | mk result s' =>
    cases result with
    | error e =>
      rcases Host.of_interpret_error hi with rfl | ⟨mark, rest, hf, hm, -, -, rfl⟩
      · exact ⟨above, rfl⟩
      · exact Frames.exists_below hf fun _ => hother hm nofun
    | ok resolution =>
      have hstep := Host.frameStep_of_interpret hi
      dsimp only at hstep ⊢
      generalize hf : above ++ frame :: below = frames at hstep
      generalize s'.frames = frames' at hstep
      cases hstep with
      | written | defined => exact ⟨above, hf.symm⟩
      | skipped | ifOpened | whileOpened | eachEmpty | eachOpened | elseMarked =>
        exact ⟨_ :: above, by rw [← hf]; rfl⟩
      | ifClosed hkind ht hl => exact Frames.exists_below hf fun _ => hother ht nofun
      | elseClosed hkind hm hml ht hl =>
        obtain ⟨above', hrest⟩ := Frames.exists_below hf fun _ => hother hm nofun
        exact Frames.exists_below hrest.symm fun _ => hother ht nofun
      | loopClosed hcloses hl => exact Frames.exists_below hf (hloop hcloses hl)
      | loopAgain items hcloses hl ht hitems =>
        obtain ⟨above', hrest⟩ := Frames.exists_below hf (hloop hcloses hl)
        exact ⟨_ :: above', by rw [hrest]; rfl⟩

/-- A token that comes back to an `each` takes the next item, or ends the loop if there is none. -/
theorem outcome_of_comesBack {opener : Token} {name sequence : String} {level resume : Nat}
    {items : List String} (hd : opener.directive = .eachOpen name sequence)
    (hc : turn.ComesBack level below.length (above ++ .each opener level resume items :: below)) :
    turn.outcome (above ++ .each opener level resume items :: below) =
      match items.head? with
      | some item =>
        (.ok .again, { turn.state with
          frames := .each opener level resume items.tail :: below
          vars := turn.state.vars.set name (.str item) })
      | none =>
        (.ok .ignore, { turn.state with
          frames := below
          vars := turn.state.vars.remove name }) := by
  obtain rfl : above = [] := by
    have hdepth := hc.depth
    rw [List.length_append, List.length_cons] at hdepth
    exact List.eq_nil_of_length_eq_zero (by omega)
  obtain ⟨host, ⟨id, directive, length⟩, level', offset, state⟩ := turn
  obtain rfl : directive = .eachClose := Token.Directive.eq_of_kind hc.close rfl
  obtain rfl : level' = level := hc.level
  refine (Host.interpret_eachClose (s := { state with frames := _ }) rfl hd rfl).trans ?_
  cases items with
  | nil => rfl
  | cons item rest => rfl

end Turn

/-! ### The turns of a loop -/

/-- As long as not more turns come back than there are items, the block of an `each` is where it was,
without an item for each turn that came back. -/
theorem Frames.exists_through {κ : Type} {opener : Token} {name sequence : String} {level resume : Nat}
    {above below : Frames} {items : List String} {turns : List (Turn κ)}
    (hd : opener.directive = .eachOpen name sequence)
    (h : comebacks level below.length (above ++ .each opener level resume items :: below) turns ≤
      items.length) :
    ∃ above', through (above ++ .each opener level resume items :: below) turns =
      above' ++ .each opener level resume (items.drop (comebacks level below.length
        (above ++ .each opener level resume items :: below) turns)) :: below := by
  have hk : ∀ items, (Frame.each opener level resume items).kind = .eachOpen :=
    fun _ => congrArg Token.Directive.kind hd
  induction turns generalizing above items with
  | nil => exact ⟨above, rfl⟩
  | cons turn turns ih =>
    show ∃ above', through (turn.leaves _) turns = _
    rw [comebacks] at h ⊢
    by_cases hc : turn.ComesBack level below.length
        (above ++ .each opener level resume items :: below)
    · rw [if_pos hc] at h ⊢
      cases items with
      | nil => exact absurd h (Nat.not_succ_le_zero _)
      | cons item rest =>
        have hleaves : turn.leaves (above ++ .each opener level resume (item :: rest) :: below) =
            [] ++ .each opener level resume rest :: below := by
          rw [Turn.leaves, Turn.outcome_of_comesBack hd hc]
          rfl
        rw [hleaves] at h ⊢
        exact ih (Nat.le_of_succ_le_succ h)
    · obtain ⟨above', hleaves⟩ := Turn.exists_leaves (hk items) hc
      rw [if_neg hc, Nat.add_zero, hleaves] at h ⊢
      exact ih h

namespace Host
variable {κ : Type} {host : Host κ} {opener : Token} {name text : String} {level resume : Nat}
  {s : RenderState κ} {value : Value} {item : String} {items : List String}

/-- An `each` whose expression stands for some items binds the first and keeps the others. -/
theorem interpret_of_opened (hd : opener.directive = .eachOpen name text)
    (hs : s.frames.suppressed = false) (hv : host.evaluator text s.vars = .ok value)
    (hi : itemsOf value = item :: items) :
    host.interpret opener level resume s =
      (.ok .ignore, { s with
        frames := .each opener level resume items :: s.frames
        vars := s.vars.set name (.str item) }) := by
  obtain ⟨id, directive, length⟩ := opener
  obtain rfl : directive = .eachOpen name text := hd
  have hevaluate : host.evaluate id s.vars text = .ok value := by
    rw [evaluate, hv]
    rfl
  rw [interpret_eachOpen, if_neg (ne_true_of_eq_false hs), openEach, hevaluate]
  dsimp only
  rw [hi]
  rfl

/-- **A loop goes over what its expression stood for when it was opened.** Where output is not withheld
and the value of the expression stands for some items, an `each` binds the first one and keeps the
others in its block. Then any tokens may be interpreted, by any hosts and in any states but for the open
blocks. As long as no more of them come back to the loop than items are kept, its block is still there,
on top of the same others. The next token that comes back binds the item that its turn is for and starts
the loop over; behind the last item it removes the name and closes the block. Each time the name alone is
bound anew, and in the end it is not bound. Of what evaluators say only the one answer counts that was
given where the loop was opened: what comes back later does the same with any host. -/
theorem runs_over_snapshot (hd : opener.directive = .eachOpen name text)
    (hs : s.frames.suppressed = false) (hv : host.evaluator text s.vars = .ok value)
    (hi : itemsOf value = item :: items) :
    (host.interpret opener level resume s =
        (.ok .ignore, { s with
          frames := .each opener level resume items :: s.frames
          vars := s.vars.set name (.str item) }) ∧
      ∀ other, (host.interpret opener level resume s).2.vars.bound? other =
        if other = name then some (.str item) else s.vars.bound? other) ∧
    ∀ (turns : List (Turn κ)) (k : Nat), Frames.comebacks level s.frames.length
        (.each opener level resume items :: s.frames) turns = k → k ≤ items.length →
      (∃ above, Frames.through (.each opener level resume items :: s.frames) turns =
        above ++ .each opener level resume (items.drop k) :: s.frames) ∧
      ∀ turn : Turn κ, turn.ComesBack level s.frames.length
          (Frames.through (.each opener level resume items :: s.frames) turns) →
        (turn.outcome (Frames.through (.each opener level resume items :: s.frames) turns) =
          match items[k]? with
          | some next =>
            (.ok .again, { turn.state with
              frames := .each opener level resume (items.drop (k + 1)) :: s.frames
              vars := turn.state.vars.set name (.str next) })
          | none =>
            (.ok .ignore, { turn.state with
              frames := s.frames
              vars := turn.state.vars.remove name })) ∧
        ∀ other, (turn.outcome (Frames.through (.each opener level resume items :: s.frames)
            turns)).2.vars.bound? other =
          if other = name then items[k]?.map .str else turn.state.vars.bound? other := by
  refine ⟨?_, fun turns k hcount hle => ?_⟩
  · refine ⟨interpret_of_opened hd hs hv hi, fun other => ?_⟩
    rw [interpret_of_opened hd hs hv hi]
    exact Variables.bound?_set ..
  · obtain ⟨above, hthrough⟩ := @Frames.exists_through κ opener name text level resume [] s.frames items
      turns hd (hcount ▸ hle)
    rw [List.nil_append, hcount] at hthrough
    refine ⟨⟨above, hthrough⟩, fun turn hc => ?_⟩
    rw [hthrough] at hc ⊢
    have hback := Turn.outcome_of_comesBack hd hc
    rw [List.head?_drop, List.tail_drop] at hback
    refine ⟨hback, fun other => ?_⟩
    rw [hback]
    cases items[k]? with
    | none => exact Variables.bound?_remove ..
    | some next => exact Variables.bound?_set ..

/-- A loop over two items whose body defines the name anew and has a loop of the same name, over a list
that is another one by then. -/
theorem runs_over_snapshot_of_same_name :
    let host : Host Unit := { evaluator := fun _ _ => .ok (.list [.str "a", .str "b"]) }
    let later : Host Unit := { evaluator := fun _ _ => .ok (.list [.str "c"]) }
    let opener : Token := ⟨1, .eachOpen "x" "v => v.xs", 18⟩
    let vars : Variables := .ofList [("x", .str "d"), ("y", .str "e")]
    let s : RenderState Unit := { vars, memory := () }
    let turn (id : Nat) (directive : Token.Directive) : Turn Unit :=
      ⟨later, ⟨id, directive, 5⟩, 0, 50, { vars, memory := () }⟩
    let turns := [turn 2 (.define "x" (.text "d")), turn 3 (.eachOpen "x" "v => v.xs"),
      turn 4 .eachClose, turn 5 .ifClose]
    let second := (turn 6 .eachClose).outcome (Frames.through [.each opener 0 22 ["b"]] turns)
    let last := (turn 7 .eachClose).outcome
      (Frames.through [.each opener 0 22 ["b"]] (turns ++ [turn 6 .eachClose]))
    host.interpret opener 0 22 s = (.ok .ignore, { s with
      frames := [.each opener 0 22 ["b"]], vars := vars.set "x" (.str "a") }) ∧
    second = (.ok .again, { (turn 6 .eachClose).state with
      frames := [.each opener 0 22 []], vars := vars.set "x" (.str "b") }) ∧
    second.2.vars.bound? "x" = some (.str "b") ∧
    last = (.ok .ignore, { (turn 7 .eachClose).state with
      frames := [], vars := vars.remove "x" }) ∧
    last.2.vars.bound? "x" = none ∧ last.2.vars.bound? "y" = some (.str "e") := by
  intro host later opener vars s turn turns second last
  obtain ⟨⟨hopen, -⟩, hturns⟩ := @runs_over_snapshot Unit host opener "x" "v => v.xs" 0 22 s _ "a" ["b"]
    rfl rfl rfl rfl
  obtain ⟨hsecond, hbound⟩ :=
    (hturns turns 0 rfl (Nat.zero_le 1)).2 (turn 6 .eachClose) ⟨rfl, rfl, rfl⟩
  obtain ⟨hlast, hremoved⟩ :=
    (hturns (turns ++ [turn 6 .eachClose]) 1 rfl (Nat.le_refl 1)).2 (turn 7 .eachClose) ⟨rfl, rfl, rfl⟩
  exact ⟨hopen, hsecond, hbound "x", hlast, hremoved "x", hremoved "y"⟩

end Host

end Stencil
