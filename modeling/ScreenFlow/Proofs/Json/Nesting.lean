import ScreenFlow.Proofs.Json.Scanning

/-!
# Trees that are read as they were nested

The lexemes of a value build its tree, with an illegible leaf in place of every array and object
beyond the greatest depth. Reading a written value therefore gives its tree with room for so much.
-/

namespace ScreenFlow.Json

namespace Builder

theorem hasRoom_iff (frames : List Frame) : hasRoom frames ↔ frames.length < maxDepth := by
  rw [hasRoom, List.isEmpty_iff, List.drop_eq_nil_iff, maxDepth]
  omega

/-- The levels that are left inside open frames. -/
def room (frames : List Frame) : Nat := maxDepth - frames.length

theorem hasRoom_of_room {frames : List Frame} {inner : Nat} (left : room frames = inner + 1) :
    hasRoom frames = true := by
  rw [room] at left
  exact (hasRoom_iff frames).mpr (by omega)

theorem hasRoom_of_room_zero {frames : List Frame} (none : room frames = 0) :
    hasRoom frames = false := by
  rw [room] at none
  rw [← Bool.not_eq_true, hasRoom_iff]
  omega

theorem room_cons (frame : Frame) (frames : List Frame) :
    room (frame :: frames) = room frames - 1 := by
  rw [room, room, List.length_cons]
  omega

/-- An array is closed as the tree for the room around it. -/
theorem closeArray_reverse (frames : List Frame) (vs : List Value) :
    closeArray (vs.map (Value.treeWithin (room frames - 1))).reverse frames =
      accept ((Value.array vs).treeWithin (room frames)) frames := by
  rw [closeArray, List.reverse_reverse]
  -- Room is used up exactly where the builder finds its frames too many.
  cases left : room frames with
  | zero => rw [hasRoom_of_room_zero left]; rfl
  | succ inner =>
      rw [hasRoom_of_room left, Value.treeWithin, Value.itemTreesWithin_eq]
      rfl

/-- An object with legible keys is closed as the tree for the room around it. -/
theorem closeObject_reverse (frames : List Frame) (ms : List (String × Value)) :
    closeObject (ms.map fun m => (m.1, m.2.treeWithin (room frames - 1))).reverse true frames =
      accept ((Value.object ms).treeWithin (room frames)) frames := by
  rw [closeObject, List.reverse_reverse, Bool.true_and]
  cases left : room frames with
  | zero => rw [hasRoom_of_room_zero left]; rfl
  | succ inner =>
      rw [hasRoom_of_room left, Value.treeWithin, Value.memberTreesWithin_eq]
      rfl

/-- The lexemes of a value build its tree where a value must begin. -/
def Builds (v : Value) : Prop :=
  ∀ frames, v.tokens.foldl step (.growing frames .value) =
    accept (v.treeWithin (room frames)) frames

/-- The first item of an array is taken like any other. -/
theorem foldl_firstItem (v : Value) (items : List Tree) (frames : List Frame) :
    v.tokens.foldl step (.growing (.array items :: frames) .firstItem) =
      v.tokens.foldl step (.growing (.array items :: frames) .value) := by
  cases v with
  | array items => cases items <;> rfl
  | object members => cases members <;> rfl
  | null | bool | number | string => rfl

/-- Items after commas are put into the innermost frame. -/
theorem foldl_itemTokens {vs : List Value} (builds : ∀ v ∈ vs, Builds v) (items : List Tree)
    (frames : List Frame) :
    (Value.itemTokens vs).foldl step (.growing (.array items :: frames) .separator) =
      .growing (.array ((vs.map (Value.treeWithin (room frames - 1))).reverse ++ items) :: frames)
        .separator := by
  -- Items pile up in the innermost frame, last one first, so those already there are generalised.
  induction vs generalizing items with
  | nil => rfl
  | cons v vs ih =>
      have first := builds v List.mem_cons_self (.array items :: frames)
      have others := ih (fun w member => builds w (List.mem_cons_of_mem v member))
        (v.treeWithin (room frames - 1) :: items)
      rw [Value.itemTokens, List.cons_append, List.foldl_cons, List.foldl_append]
      show List.foldl step (v.tokens.foldl step (.growing (.array items :: frames) .value)) _ = _
      rw [first, room_cons]
      show List.foldl step (.growing (.array (_ :: items) :: frames) .separator) _ = _
      rw [others, List.map_cons, List.reverse_cons, List.append_assoc, List.singleton_append]

/-- Members after commas are put into the innermost frame; the key before them does not matter. -/
theorem foldl_memberTokens {ms : List (String × Value)} (builds : ∀ m ∈ ms, Builds m.2)
    (members : List (String × Tree)) (key : String) (frames : List Frame) :
    ∃ last, (Value.memberTokens ms).foldl step
        (.growing (.object members true key :: frames) .separator) =
      .growing (.object ((ms.map fun m => (m.1, m.2.treeWithin (room frames - 1))).reverse ++
        members) true last :: frames) .separator := by
  induction ms generalizing members key with
  | nil => exact ⟨key, rfl⟩
  | cons m ms ih =>
      have first := builds m List.mem_cons_self (.object members true m.1 :: frames)
      obtain ⟨last, others⟩ := ih (fun w member => builds w (List.mem_cons_of_mem m member))
        ((m.1, m.2.treeWithin (room frames - 1)) :: members) m.1
      refine ⟨last, ?_⟩
      rw [Value.memberTokens, List.cons_append, List.cons_append, List.cons_append,
        List.foldl_cons, List.foldl_cons, List.foldl_cons, List.foldl_append]
      show List.foldl step
        (m.2.tokens.foldl step (.growing (.object members true m.1 :: frames) .value)) _ = _
      rw [first, room_cons]
      show List.foldl step
        (.growing (.object ((m.1, _) :: members) true m.1 :: frames) .separator) _ = _
      rw [others, List.map_cons, List.reverse_cons, List.append_assoc, List.singleton_append]

/-- The lexemes of every value build its tree. -/
theorem builds (v : Value) : Builds v := by
  -- Along the value, for any frames around it: each part is built inside one frame more.
  induction v using Value.partInduction with
  | null | bool | number | string => exact fun frames => by cases room frames <;> rfl
  | array items ih =>
      intro frames
      cases items with
      | nil => exact closeArray_reverse frames []
      | cons v vs =>
          have first := ih v List.mem_cons_self (.array [] :: frames)
          have others := foldl_itemTokens (fun w member => ih w (List.mem_cons_of_mem v member))
            [v.treeWithin (room frames - 1)] frames
          rw [Value.tokens, List.cons_append, List.cons_append, List.foldl_cons, List.foldl_append,
            List.foldl_append]
          show List.foldl step (List.foldl step (v.tokens.foldl step
            (.growing (.array [] :: frames) .firstItem)) _) _ = _
          rw [foldl_firstItem, first, room_cons]
          show List.foldl step
            (List.foldl step (.growing (.array [_] :: frames) .separator) _) _ = _
          rw [others, ← closeArray_reverse frames (v :: vs), List.map_cons, List.reverse_cons]
          rfl
  | object members ih =>
      intro frames
      cases members with
      | nil => exact closeObject_reverse frames []
      | cons m ms =>
          have first := ih m List.mem_cons_self (.object [] true m.1 :: frames)
          obtain ⟨last, others⟩ := foldl_memberTokens
            (fun w member => ih w (List.mem_cons_of_mem m member))
            [(m.1, m.2.treeWithin (room frames - 1))] m.1 frames
          simp only [Value.tokens, List.cons_append, List.foldl_cons, List.foldl_append]
          show step (List.foldl step (m.2.tokens.foldl step
            (.growing (.object [] true m.1 :: frames) .value)) _) _ = _
          rw [first, room_cons]
          show step (List.foldl step
            (.growing (.object [(m.1, _)] true m.1 :: frames) .separator) _) _ = _
          rw [others, ← closeObject_reverse frames (m :: ms), List.map_cons, List.reverse_cons]
          rfl

end Builder

namespace Tree

/-- Lexemes have the tree that they complete. -/
theorem ofTokens?_eq_some_iff {ts : List Token} {t : Tree} :
    ofTokens? ts = some t ↔ ts.foldl Builder.step (.growing [] .value) = .complete t := by
  rw [ofTokens?]
  cases ts.foldl Builder.step (.growing [] .value) with
  | complete tree => rw [Option.some.injEq, Builder.complete.injEq]
  | growing | failed => exact iff_of_false nofun nofun

theorem ofTokens?_tokens (v : Value) : ofTokens? v.tokens = some (v.treeWithin maxDepth) :=
  ofTokens?_eq_some_iff.mpr (Builder.builds v [])

/-- A written value is read as its tree with room for the greatest depth. -/
theorem parse?_render {v : Value} (readsBack : v.All Value.ReadsBack) (indented : Bool) :
    parse? (v.render indented) = some (v.treeWithin maxDepth) := by
  rw [parse?, Value.tokens?_render readsBack, Option.bind_some, ofTokens?_tokens]

/-- A written value that is not nested too deep is read as its tree. -/
theorem parse?_render_of_depth_le {v : Value} (readsBack : v.All Value.ReadsBack)
    (fits : v.depth ≤ maxDepth) (indented : Bool) : parse? (v.render indented) = some v.toTree := by
  rw [parse?_render readsBack, Value.treeWithin_eq_toTree fits]

end Tree

end ScreenFlow.Json
