import ScreenFlow.Proofs.Json.Integers

/-!
# Levels of trees and values

The tree of a text has no more levels than a text may have, and a value has no more levels than the
trees that stand for it.
-/

namespace ScreenFlow.Json

namespace Tree

/-! ## Levels of a tree -/

mutual

/-- The number of arrays and objects around the innermost part of a tree. -/
def depth : Tree → Nat
  | .array items => itemsDepth items + 1
  | .object members => membersDepth members + 1
  | _ => 0
termination_by structural t => t

/-- The greatest depth of an item. -/
def itemsDepth : List Tree → Nat
  | [] => 0
  | t :: ts => max (depth t) (itemsDepth ts)
termination_by structural ts => ts

/-- The greatest depth of the tree of a member. -/
def membersDepth : List (String × Tree) → Nat
  | [] => 0
  | (_, t) :: ms => max (depth t) (membersDepth ms)
termination_by structural ms => ms

end

theorem itemsDepth_le_iff {ts : List Tree} {room : Nat} :
    itemsDepth ts ≤ room ↔ ∀ t ∈ ts, t.depth ≤ room := by
  induction ts with
  | nil => simp [itemsDepth]
  | cons t ts ih => rw [itemsDepth, Nat.max_le, ih, List.forall_mem_cons]

theorem membersDepth_le_iff {ms : List (String × Tree)} {room : Nat} :
    membersDepth ms ≤ room ↔ ∀ m ∈ ms, m.2.depth ≤ room := by
  induction ms with
  | nil => simp [membersDepth]
  | cons m ms ih => rw [membersDepth, Nat.max_le, ih, List.forall_mem_cons]

theorem depth_array_le_iff {items : List Tree} {room : Nat} :
    (array items).depth ≤ room + 1 ↔ ∀ t ∈ items, t.depth ≤ room := by
  rw [depth, Nat.add_le_add_iff_right, itemsDepth_le_iff]

theorem depth_object_le_iff {members : List (String × Tree)} {room : Nat} :
    (object members).depth ≤ room + 1 ↔ ∀ m ∈ members, m.2.depth ≤ room := by
  rw [depth, Nat.add_le_add_iff_right, membersDepth_le_iff]

/-- The tree of a text has at most so many levels as a text may have. -/
theorem depth_le_of_parse? {text : String} {t : Tree} (read : parse? text = some t) :
    t.depth ≤ maxDepth := by
  have heritable : Heritable fun room t => t.depth ≤ room :=
    ⟨fun _ => Nat.zero_le _, depth_array_le_iff.mpr, depth_object_le_iff.mpr⟩
  refine heritable.of_parse? ?_ read
  intro ts _ t _ leaf room found
  have flat : leaf.depth = 0 := by cases t <;> cases found <;> rfl
  rw [flat]
  exact Nat.zero_le room

/-- The integers in a tree fit, and it has at most so many levels. -/
structure Within (room : Nat) (t : Tree) : Prop where
  fits : t.Fits
  depth_le : t.depth ≤ room

/-- The items of an array have one level less, also where there are none. -/
theorem within_array {room : Nat} {items : List Tree} (within : (array items).Within room) :
    ∃ less, room = less + 1 ∧ ∀ t ∈ items, t.Within less := by
  cases room with
  | zero => cases within.depth_le
  | succ less =>
      refine ⟨less, rfl, ?_⟩
      intro t member
      exact ⟨fits_array.mp within.fits t member, depth_array_le_iff.mp within.depth_le t member⟩

theorem within_object {room : Nat} {members : List (String × Tree)}
    (within : (object members).Within room) :
    ∃ less, room = less + 1 ∧ ∀ m ∈ members, m.2.Within less := by
  cases room with
  | zero => cases within.depth_le
  | succ less =>
      refine ⟨less, rfl, ?_⟩
      intro m member
      exact ⟨fits_object.mp within.fits m member, depth_object_le_iff.mp within.depth_le m member⟩

/-- The parts of a tree, if it has any, have one level less. -/
theorem Within.of_parts {room : Nat} {t : Tree} (within : t.Within room) (some : t.parts ≠ []) :
    ∃ less, room = less + 1 ∧ ∀ part ∈ t.parts, part.Within less := by
  cases t with
  | array items => exact within_array within
  | object members =>
      obtain ⟨less, left, each⟩ := within_object within
      exact ⟨less, left, List.forall_mem_map.mpr each⟩
  | null | bool | number | string | illegible => exact absurd rfl some

end Tree

namespace Value

/-! ## Levels of a value -/

/-- A value is proper and has at most so many levels. -/
structure Within (room : Nat) (v : Value) : Prop where
  proper : v.All IsProper
  depth_le : v.depth ≤ room

theorem within_array {room : Nat} {vs : List Value} (each : ∀ v ∈ vs, v.Within room) :
    (array vs).Within (room + 1) where
  proper := (all_array vs).mpr ⟨⟨trivial, trivial⟩, fun v member => (each v member).proper⟩
  depth_le := depth_array_le_iff.mpr fun v member => (each v member).depth_le

theorem within_object {room : Nat} {ms : List (String × Value)} (distinct : (Entries.keys ms).Nodup)
    (each : ∀ m ∈ ms, m.2.Within room) : (object ms).Within (room + 1) where
  proper := (all_object ms).mpr ⟨⟨distinct, trivial⟩, fun m member => (each m member).proper⟩
  depth_le := depth_object_le_iff.mpr fun m member => (each m member).depth_le

end Value

/-- The value of a tree is proper and has no more levels than the tree. -/
theorem Tree.within_of_toValue? {room : Nat} {t : Tree} {v : Value} (within : t.Within room)
    (read : t.toValue? = some v) : v.Within room := by
  induction t using partInduction generalizing room v with
  | null | bool | number | string =>
      have proper := proper_of_toValue? within.fits read
      cases read
      exact ⟨proper, Nat.zero_le room⟩
  | array ts ih =>
      obtain ⟨vs, items, rfl⟩ := Option.map_eq_some_iff.mp read
      obtain ⟨less, rfl, each⟩ := within_array within
      apply Value.within_array
      intro v member
      obtain ⟨t, among, found⟩ := exists_of_itemValues? items v member
      exact ih t among (each t among) found
  | object ms ih =>
      obtain ⟨vs, members, rfl⟩ := Option.map_eq_some_iff.mp read
      obtain ⟨less, rfl, each⟩ := within_object within
      refine Value.within_object (Entries.nodup_keys_ofMembers vs) ?_
      intro v member
      obtain ⟨m, among, found⟩ :=
        exists_of_memberValues? members v (Entries.mem_of_mem_ofMembers member)
      exact ih m among (each m among) found
  | illegible => cases read

end ScreenFlow.Json
