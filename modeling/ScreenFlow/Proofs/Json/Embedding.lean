import ScreenFlow.Proofs.Json.Levels

/-!
# Texts inside texts

A text that stands inside another is read there as it is read alone. The scanner never looks back at
lexemes it has finished, and the builder never looks below the frame it is in, except for the number
of frames there: what is nested too deep inside the other text is cut off.
-/

namespace ScreenFlow.Json

/-! ## Lexemes behind others -/

namespace Scanner

/-- A scanner that has read other lexemes before, the latest first. -/
def behind (before : List Token) (s : Scanner) : Scanner := ⟨s.tokens ++ before, s.mode⟩

section

variable (before : List Token)

theorem emit_behind (tokens : List Token) (t : Option Token) :
    emit (tokens ++ before) t = (emit tokens t).behind before := by
  cases t <;> rfl

theorem begin_behind (tokens : List Token) (c : Char) :
    begin (tokens ++ before) c = (begin tokens c).behind before := by
  unfold begin
  split
  · rfl
  · split
    · rfl
    · split
      · rfl
      · split
        · rfl
        · exact emit_behind before tokens (markToken? c)

theorem stepString_behind (tokens : List Token) (s : OpenString) (c : Char) :
    stepString (tokens ++ before) s c = (stepString tokens s c).behind before := by
  unfold stepString
  repeat' split
  all_goals rfl

theorem flush_behind (s : Scanner) : (s.behind before).flush = s.flush.behind before := by
  obtain ⟨tokens, mode⟩ := s
  cases mode with
  | word letters => exact emit_behind before tokens _
  | numeral chars => exact emit_behind before tokens _
  | between | string | failed => rfl

/-- Taking a character does not depend on the lexemes before. -/
theorem step_behind (s : Scanner) (c : Char) :
    (s.behind before).step c = (s.step c).behind before := by
  -- A character that ends a word or numeral is taken once more after the flush.
  have ended : (if (s.behind before).flush.mode = .between
      then begin (s.behind before).flush.tokens c else (s.behind before).flush) =
      (if s.flush.mode = .between then begin s.flush.tokens c else s.flush).behind before := by
    rw [flush_behind]
    show (if s.flush.mode = .between then begin (s.flush.tokens ++ before) c else _) = _
    rw [begin_behind]
    split <;> rfl
  obtain ⟨tokens, mode⟩ := s
  cases mode with
  | between => exact begin_behind before tokens c
  | string s => exact stepString_behind before tokens s c
  | word letters =>
      cases letter : c.isLower with
      | true => simp [step, behind, letter]
      | false => simpa [step, behind, letter] using ended
  | numeral chars =>
      cases inside : isNumeralChar c with
      | true => simp [step, behind, inside]
      | false => simpa [step, behind, inside] using ended
  | failed => rfl

theorem foldl_step_behind (cs : List Char) (s : Scanner) :
    cs.foldl step (s.behind before) = (cs.foldl step s).behind before := by
  induction cs generalizing s with
  | nil => rfl
  | cons c cs ih => rw [List.foldl_cons, List.foldl_cons, step_behind, ih]

end

end Scanner

/-- Whatever lexemes stand before, the end of a text ends its last one. -/
theorem flush_foldl_of_tokens? {cs : List Char} {ts : List Token} (read : tokens? cs = some ts)
    (before : List Token) :
    (cs.foldl Scanner.step ⟨before, .between⟩).flush = ⟨ts.reverse ++ before, .between⟩ := by
  have alone : (cs.foldl Scanner.step .start).flush = ⟨ts.reverse, .between⟩ := by
    simp only [tokens?] at read
    split at read
    · rename_i between
      cases read
      rw [List.reverse_reverse, ← between]
    · cases read
  show (cs.foldl Scanner.step (Scanner.start.behind before)).flush = _
  rw [Scanner.foldl_step_behind, Scanner.flush_behind, alone]
  rfl

/-- A text behind whole lexemes is read as it is read alone. -/
theorem tokens?_behind {first text : List Char} {before ts : List Token}
    (opened : first.foldl Scanner.step .start = ⟨before.reverse, .between⟩)
    (read : tokens? text = some ts) : tokens? (first ++ text) = some (before ++ ts) := by
  rw [tokens?, List.foldl_append, opened, flush_foldl_of_tokens? read]
  simp only [if_true, List.reverse_append, List.reverse_reverse]

/-- A text behind a mark is read as it is read alone. -/
theorem tokens?_cons {c : Char} {t : Token} {text : List Char} {ts : List Token}
    (mark : Scanner.start.step c = ⟨[t], .between⟩) (read : tokens? text = some ts) :
    tokens? (c :: text) = some (t :: ts) := by
  have opened : [c].foldl Scanner.step .start = ⟨[t].reverse, .between⟩ := mark
  exact tokens?_behind opened read

/-- A text before a delimiter is read as it is read alone. -/
theorem tokens?_append {text last : List Char} {ts after : List Token}
    (read : tokens? text = some ts) (readLast : tokens? last = some after)
    (delimited : Delimited last) : tokens? (text ++ last) = some (ts ++ after) := by
  have ended := flush_foldl_of_tokens? read []
  rw [List.append_nil] at ended
  have whole : ((text ++ last).foldl Scanner.step .start).flush =
      ⟨after.reverse ++ ts.reverse, .between⟩ := by
    rw [List.foldl_append, show Scanner.start = ⟨[], .between⟩ from rfl,
      Scanner.flush_foldl_of_flush ended delimited, flush_foldl_of_tokens? readLast]
  rw [tokens?, whole]
  simp only [if_true, List.reverse_append, List.reverse_reverse]

/-- A text behind whole lexemes and before a delimiter is read as it is read alone. -/
theorem tokens?_between {first text last : List Char} {before ts after : List Token}
    (opened : first.foldl Scanner.step .start = ⟨before.reverse, .between⟩)
    (read : tokens? text = some ts) (closed : Spells last after) (delimited : Delimited last) :
    tokens? (first ++ text ++ last) = some (before ++ ts ++ after) :=
  tokens?_append (tokens?_behind opened read) closed.tokens? delimited

/-! ## Trees with less room -/

namespace Tree

mutual

/-- A tree with an illegible leaf in place of every array and object beyond so many levels. -/
def cut : Nat → Tree → Tree
  | 0, .array _ => .illegible
  | room + 1, .array items => .array (cutItems room items)
  | 0, .object _ => .illegible
  | room + 1, .object members => .object (cutMembers room members)
  | _, .null => .null
  | _, .bool b => .bool b
  | _, .number n => .number n
  | _, .string s => .string s
  | _, .illegible => .illegible
termination_by structural _ t => t

/-- The trees of a list with less room. -/
def cutItems : Nat → List Tree → List Tree
  | _, [] => []
  | room, t :: ts => cut room t :: cutItems room ts
termination_by structural _ ts => ts

/-- The trees of members with less room. -/
def cutMembers : Nat → List (String × Tree) → List (String × Tree)
  | _, [] => []
  | room, (key, t) :: ms => (key, cut room t) :: cutMembers room ms
termination_by structural _ ms => ms

end

theorem cutItems_eq (room : Nat) (ts : List Tree) : cutItems room ts = ts.map (cut room) := by
  induction ts with
  | nil => rfl
  | cons t ts ih => rw [cutItems, ih, List.map_cons]

theorem cutMembers_eq (room : Nat) (ms : List (String × Tree)) :
    cutMembers room ms = ms.map fun m => (m.1, m.2.cut room) := by
  induction ms with
  | nil => rfl
  | cons m ms ih => rw [cutMembers, ih, List.map_cons]

theorem cut_illegible (room : Nat) : cut room .illegible = .illegible := by
  cases room <;> rfl

/-- Only numbers are numbers where there is less room. -/
theorem cut_eq_number_iff {room : Nat} {t : Tree} {n : Number} :
    t.cut room = .number n ↔ t = .number n := by
  cases t with
  | array | object => cases room <;> exact iff_of_false nofun nofun
  | null | bool | number | string | illegible => cases room <;> rfl

/-- A tree that fits is not cut. -/
theorem cut_of_depth_le {t : Tree} {room : Nat} (fits : t.depth ≤ room) : t.cut room = t := by
  induction t using partInduction generalizing room with
  | null | bool | number | string | illegible => cases room <;> rfl
  | array items ih =>
      cases room with
      | zero => cases fits
      | succ less =>
          rw [depth_array_le_iff] at fits
          rw [cut, cutItems_eq]
          have same := List.map_congr_left fun t member => ih t member (fits t member)
          exact congrArg array (same.trans (List.map_id' items))
  | object members ih =>
      cases room with
      | zero => cases fits
      | succ less =>
          rw [depth_object_le_iff] at fits
          rw [cut, cutMembers_eq]
          have same := List.map_congr_left fun m member =>
            congrArg (Prod.mk m.1) (ih m member (fits m member))
          exact congrArg object (same.trans (List.map_id' members))

end Tree

/-! ## Trees inside frames -/

/-- An open frame whose finished parts have less room. -/
def Frame.cut (room : Nat) : Frame → Frame
  | .array items => .array (items.map (Tree.cut room))
  | .object members legible key => .object (members.map fun m => (m.1, m.2.cut room)) legible key

namespace Builder

section

variable (base : List Frame)

/-- Open frames inside others, with the room that is left there. -/
def framesInside : List Frame → List Frame
  | [] => base
  | frame :: frames => frame.cut (room (framesInside frames) - 1) :: framesInside frames

/-- A builder whose frames are inside others. -/
def inside : Builder → Builder
  | .growing frames next => .growing (framesInside base frames) next
  | .complete tree => accept (tree.cut (room base)) base
  | .failed => .failed

theorem length_le_framesInside (frames : List Frame) :
    frames.length ≤ (framesInside base frames).length := by
  induction frames with
  | nil => exact Nat.zero_le _
  | cons frame frames ih => exact Nat.succ_le_succ ih

theorem hasRoom_of_framesInside {frames : List Frame}
    (left : hasRoom (framesInside base frames) = true) : hasRoom frames = true := by
  rw [hasRoom_iff] at left ⊢
  exact Nat.lt_of_le_of_lt (length_le_framesInside base frames) left

theorem accept_inside (tree : Tree) (frames : List Frame) :
    accept (tree.cut (room (framesInside base frames))) (framesInside base frames) =
      inside base (accept tree frames) := by
  cases frames with
  | nil => rfl
  | cons frame frames =>
      rw [framesInside, room_cons]
      cases frame <;> rfl

theorem closeArray_inside (items : List Tree) (frames : List Frame) :
    closeArray (items.map (Tree.cut (room (framesInside base frames) - 1)))
        (framesInside base frames) = inside base (closeArray items frames) := by
  rw [closeArray, closeArray, ← accept_inside]
  congr 1
  cases left : room (framesInside base frames) with
  | zero =>
      rw [hasRoom_of_room_zero left]
      cases hasRoom frames <;> rfl
  | succ less =>
      have both := hasRoom_of_room left
      rw [both, hasRoom_of_framesInside base both, if_pos rfl, if_pos rfl, Tree.cut,
        Tree.cutItems_eq, List.map_reverse]
      rfl

theorem closeObject_inside (members : List (String × Tree)) (legible : Bool)
    (frames : List Frame) :
    closeObject (members.map fun m => (m.1, m.2.cut (room (framesInside base frames) - 1))) legible
        (framesInside base frames) = inside base (closeObject members legible frames) := by
  rw [closeObject, closeObject, ← accept_inside]
  congr 1
  cases legible with
  | false => rw [Bool.false_and, Bool.false_and, if_neg Bool.false_ne_true,
      if_neg Bool.false_ne_true, Tree.cut_illegible]
  | true =>
      cases left : room (framesInside base frames) with
      | zero =>
          rw [hasRoom_of_room_zero left]
          cases hasRoom frames <;> rfl
      | succ less =>
          have both := hasRoom_of_room left
          rw [both, hasRoom_of_framesInside base both, Bool.and_self, if_pos rfl, if_pos rfl,
            Tree.cut, Tree.cutMembers_eq, List.map_reverse]
          rfl

theorem beginValue_inside (frames : List Frame) (t : Token) :
    beginValue (framesInside base frames) t = inside base (beginValue frames t) := by
  have leaf {tree : Tree} (read : t.leaf? = some tree) (room : Nat) : tree.cut room = tree := by
    cases t <;> cases read <;> cases room <;> rfl
  unfold beginValue
  split
  · rfl
  · rfl
  · split
    · rename_i tree read
      rw [← accept_inside, leaf read]
    · rfl

theorem beginMember_inside {frames : List Frame} {t : Token}
    (accepted : beginMember frames t ≠ .failed) :
    beginMember (framesInside base frames) t = inside base (beginMember frames t) := by
  unfold beginMember at accepted ⊢
  split at accepted
  · rfl
  · rfl
  · exact absurd rfl accepted

/-- Only the end of an array is special where the first item may come. -/
theorem step_firstItem {t : Token} (notEnd : t ≠ .closeArray) (frames : List Frame) :
    step (.growing frames .firstItem) t = beginValue frames t := by
  unfold step
  dsimp only
  split
  · exact absurd rfl notEnd
  · rfl

theorem foldl_failed (ts : List Token) : ts.foldl step .failed = .failed := by
  induction ts with
  | nil => rfl
  | cons t ts ih => exact ih

/-- A lexeme that is accepted has the same effect inside other frames. -/
theorem step_inside {b : Builder} {t : Token} (accepted : b.step t ≠ .failed) :
    (inside base b).step t = inside base (b.step t) := by
  -- With no frame of its own the builder accepts only a value, which looks at no frame below.
  cases b with
  | growing frames next =>
      cases next with
      | value => exact beginValue_inside base frames t
      | firstItem =>
          by_cases isEnd : t = .closeArray
          · subst isEnd
            cases frames with
            | nil => exact absurd rfl accepted
            | cons frame frames =>
                cases frame with
                | array items => exact closeArray_inside base items frames
                | object members legible key => exact absurd rfl accepted
          · rw [inside, step_firstItem isEnd, step_firstItem isEnd]
            exact beginValue_inside base frames t
      | firstKey =>
          cases frames with
          | nil => exact absurd rfl accepted
          | cons frame frames =>
              cases frame with
              | array items => exact absurd rfl accepted
              | object members legible key =>
                  cases t with
                  | closeObject => exact closeObject_inside base members legible frames
                  | string | illegibleString => rfl
                  | _ => exact absurd rfl accepted
      | key => exact beginMember_inside base accepted
      | colon =>
          unfold step at accepted ⊢
          dsimp only [inside] at accepted ⊢
          split
          · rfl
          · rfl
      | separator =>
          cases frames with
          | nil => exact absurd rfl accepted
          | cons frame frames =>
              cases frame with
              | array items =>
                  cases t with
                  | comma => rfl
                  | closeArray => exact closeArray_inside base items frames
                  | _ => exact absurd rfl accepted
              | object members legible key =>
                  cases t with
                  | comma => rfl
                  | closeObject => exact closeObject_inside base members legible frames
                  | _ => exact absurd rfl accepted
  | complete => exact absurd rfl accepted
  | failed => exact absurd rfl accepted

/-- A tree that is complete alone is put into the innermost frame around it, cut to the room there.
-/
theorem foldl_step_inside {ts : List Token} {b : Builder} {tree : Tree}
    (alone : ts.foldl step b = .complete tree) :
    ts.foldl step (inside base b) = accept (tree.cut (room base)) base := by
  induction ts generalizing b with
  | nil =>
      cases alone
      rfl
  | cons t ts ih =>
      have accepted : b.step t ≠ .failed := by
        intro failed
        rw [List.foldl_cons, failed, foldl_failed] at alone
        cases alone
      rw [List.foldl_cons, step_inside base accepted]
      exact ih alone

end

/-- A tree that is complete alone is the first item of an array as well. -/
theorem foldl_step_firstItem {ts : List Token} {tree : Tree} {items : List Tree}
    {frames : List Frame} (alone : ts.foldl step (.growing [] .value) = .complete tree) :
    ts.foldl step (.growing (.array items :: frames) .firstItem) =
      accept (tree.cut (room frames - 1)) (.array items :: frames) := by
  have embedded := foldl_step_inside (.array items :: frames) alone
  rw [room_cons] at embedded
  rw [← embedded]
  cases ts with
  | nil => cases alone
  | cons t ts =>
      have notEnd : t ≠ .closeArray := by
        rintro rfl
        have failed : ts.foldl step .failed = .complete tree := alone
        rw [foldl_failed] at failed
        cases failed
      rw [List.foldl_cons, step_firstItem notEnd]
      rfl

end Builder

end ScreenFlow.Json
