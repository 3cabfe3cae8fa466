import ScreenFlow.Proofs.Json.Nesting

/-!
# What is kept while a tree is built

A tree is built inside open frames, and every frame takes one level of the room that a text has. A
condition that passes from parts to the array or object around them, which has one level more, is
kept by every lexeme, so that it holds of the tree of every text.
-/

namespace ScreenFlow.Json

/-- A condition on trees with some room that passes from parts to the whole. What is illegible meets
it anyway. -/
structure Heritable (P : Nat → Tree → Prop) : Prop where
  illegible : ∀ room, P room .illegible
  array : ∀ {room items}, (∀ t ∈ items, P room t) → P (room + 1) (.array items)
  object : ∀ {room members}, (∀ m ∈ members, P room m.2) → P (room + 1) (.object members)

/-- The finished parts of an open frame meet a condition. -/
def Frame.Meets (Q : Tree → Prop) : Frame → Prop
  | .array items => ∀ t ∈ items, Q t
  | .object members _ _ => ∀ m ∈ members, Q m.2

namespace Builder

/-- The finished parts of open frames meet a condition, each with the room that is left there. -/
def FramesMeet (P : Nat → Tree → Prop) : List Frame → Prop
  | [] => True
  | frame :: frames => frame.Meets (P (room frames - 1)) ∧ FramesMeet P frames

/-- Everything finished so far meets a condition. -/
def Meets (P : Nat → Tree → Prop) : Builder → Prop
  | .growing frames _ => FramesMeet P frames
  | .complete tree => P maxDepth tree
  | .failed => True

section

variable {P : Nat → Tree → Prop} {frames : List Frame}

theorem meets_accept {tree : Tree} (finished : P (room frames) tree)
    (before : FramesMeet P frames) : (accept tree frames).Meets P := by
  -- A finished part completes the tree or goes into the innermost frame.
  cases frames with
  | nil => exact finished
  | cons frame frames =>
      obtain ⟨inner, outer⟩ := before
      rw [room_cons] at finished
      cases frame with
      | array items => exact ⟨List.forall_mem_cons.mpr ⟨finished, inner⟩, outer⟩
      | object members => exact ⟨List.forall_mem_cons.mpr ⟨finished, inner⟩, outer⟩

theorem meets_closeArray (heritable : Heritable P) {items : List Tree}
    (inner : ∀ t ∈ items, P (room frames - 1) t) (outer : FramesMeet P frames) :
    (closeArray items frames).Meets P := by
  refine meets_accept ?_ outer
  cases left : room frames with
  | zero =>
      rw [hasRoom_of_room_zero left]
      exact heritable.illegible 0
  | succ less =>
      rw [left] at inner
      rw [hasRoom_of_room left]
      exact heritable.array fun t member => inner t (List.mem_reverse.mp member)

theorem meets_closeObject (heritable : Heritable P) {members : List (String × Tree)}
    {legible : Bool} (inner : ∀ m ∈ members, P (room frames - 1) m.2)
    (outer : FramesMeet P frames) : (closeObject members legible frames).Meets P := by
  refine meets_accept ?_ outer
  split
  · rename_i both
    cases left : room frames with
    | zero =>
        rw [hasRoom_of_room_zero left, Bool.and_false] at both
        cases both
    | succ less =>
        rw [left] at inner
        exact heritable.object fun m member => inner m (List.mem_reverse.mp member)
  · exact heritable.illegible _

theorem meets_beginValue {t : Token} (leaf : ∀ tree room, t.leaf? = some tree → P room tree)
    (before : FramesMeet P frames) : (beginValue frames t).Meets P := by
  unfold beginValue
  split
  · exact ⟨List.forall_mem_nil _, before⟩
  · exact ⟨List.forall_mem_nil _, before⟩
  · split
    · rename_i tree read
      exact meets_accept (leaf tree _ read) before
    · trivial

theorem meets_beginMember (before : FramesMeet P frames) (t : Token) :
    (beginMember frames t).Meets P := by
  unfold beginMember
  split
  · exact before
  · exact before
  · trivial

/-- Taking a lexeme whose leaf meets a condition keeps that everything finished meets it. -/
theorem meets_step (heritable : Heritable P) {b : Builder} {t : Token}
    (leaf : ∀ tree room, t.leaf? = some tree → P room tree) (before : b.Meets P) :
    (b.step t).Meets P := by
  -- One case for each thing that may come next; only closing marks and values add to the parts.
  cases b with
  | growing frames next =>
      cases next with
      | value => exact meets_beginValue leaf before
      | firstItem =>
          unfold step
          dsimp only
          split
          · exact meets_closeArray heritable before.1 before.2
          · exact meets_beginValue leaf before
      | firstKey =>
          unfold step
          dsimp only
          split
          · exact meets_closeObject heritable before.1 before.2
          · exact meets_beginMember before t
      | key => exact meets_beginMember before t
      | colon =>
          unfold step
          dsimp only
          split
          · exact before
          · trivial
      | separator =>
          unfold step
          dsimp only
          split
          · exact before
          · exact meets_closeArray heritable before.1 before.2
          · exact before
          · exact meets_closeObject heritable before.1 before.2
          · trivial
  | complete => trivial
  | failed => trivial

theorem meets_foldl (heritable : Heritable P) {ts : List Token}
    (leaves : ∀ t ∈ ts, ∀ tree room, t.leaf? = some tree → P room tree) {b : Builder}
    (before : b.Meets P) : (ts.foldl step b).Meets P := by
  induction ts generalizing b with
  | nil => exact before
  | cons t ts ih =>
      obtain ⟨first, others⟩ := List.forall_mem_cons.mp leaves
      exact ih others (meets_step heritable first before)

end

end Builder

/-- What all leaves of a text meet, and what passes from parts to the whole, holds of its tree with
the room that a text has. -/
theorem Heritable.of_parse? {P : Nat → Tree → Prop} (heritable : Heritable P) {text : String}
    (leaves : ∀ ts, tokens? text.toList = some ts →
      ∀ t ∈ ts, ∀ tree room, t.leaf? = some tree → P room tree) {t : Tree}
    (read : Tree.parse? text = some t) : P maxDepth t := by
  obtain ⟨ts, scanned, built⟩ := Option.bind_eq_some_iff.mp read
  have all : (ts.foldl Builder.step (.growing [] .value)).Meets P :=
    Builder.meets_foldl heritable (leaves ts scanned) trivial
  rwa [Tree.ofTokens?_eq_some_iff.mp built] at all

end ScreenFlow.Json
