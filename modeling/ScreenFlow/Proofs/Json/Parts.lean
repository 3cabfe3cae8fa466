import Mathlib.Data.List.Forall2
import ScreenFlow.Json.Tree
import ScreenFlow.Json.Writing

/-!
# What is inside a value

Conditions on a JSON value are conditions on each value inside it. The depth of a value counts the
arrays and objects around its innermost part. A tree with room for so many levels has an illegible
leaf in place of everything deeper, so it is legible exactly when the depth of its value fits.
-/

namespace ScreenFlow.Json

/-! ## Lists that correspond -/

/-- What stands on the left has its counterpart on the right. -/
theorem exists_right_of_forall₂ {α β : Type} {R : α → β → Prop} {as : List α} {bs : List β}
    (related : List.Forall₂ R as bs) : ∀ a ∈ as, ∃ b ∈ bs, R a b := by
  induction related with
  | nil => simp
  | cons first _ ih =>
      refine List.forall_mem_cons.mpr ⟨⟨_, List.mem_cons_self, first⟩, ?_⟩
      intro a member
      obtain ⟨b, among, here⟩ := ih a member
      exact ⟨b, List.mem_cons_of_mem _ among, here⟩

/-- What stands on the right has its counterpart on the left. -/
theorem exists_left_of_forall₂ {α β : Type} {R : α → β → Prop} {as : List α} {bs : List β}
    (related : List.Forall₂ R as bs) : ∀ b ∈ bs, ∃ a ∈ as, R a b :=
  exists_right_of_forall₂ related.flip

namespace Value

/-- To prove something of every value, prove it of scalars, and of arrays and objects from what they
hold. -/
theorem partInduction {motive : Value → Prop} (null : motive .null) (bool : ∀ b, motive (.bool b))
    (number : ∀ n, motive (.number n)) (string : ∀ s, motive (.string s))
    (array : ∀ items, (∀ v ∈ items, motive v) → motive (.array items))
    (object : ∀ members : List (String × Value), (∀ m ∈ members, motive m.2) →
      motive (.object members))
    (v : Value) : motive v :=
  @Value.rec motive (fun items => ∀ v ∈ items, motive v)
    (fun members => ∀ m ∈ members, motive m.2) (fun m => motive m.2)
    null bool number string array object
    (List.forall_mem_nil _)
    (fun _ _ head tail => List.forall_mem_cons.mpr ⟨head, tail⟩)
    (List.forall_mem_nil _)
    (fun _ _ head tail => List.forall_mem_cons.mpr ⟨head, tail⟩)
    (fun _ _ value => value) v

/-! ## Everything inside -/

mutual

/-- A value and everything inside it, each value before its parts. -/
def walk : Value → List Value
  | .array items => .array items :: walkItems items
  | .object members => .object members :: walkMembers members
  | v => [v]
termination_by structural v => v

/-- The walks of items one after the other. -/
def walkItems : List Value → List Value
  | [] => []
  | v :: vs => walk v ++ walkItems vs
termination_by structural vs => vs

/-- The walks of the values of members one after the other. -/
def walkMembers : List (String × Value) → List Value
  | [] => []
  | (_, v) :: ms => walk v ++ walkMembers ms
termination_by structural ms => ms

end

theorem walkItems_eq (vs : List Value) : walkItems vs = vs.flatMap walk := by
  induction vs with
  | nil => rfl
  | cons v vs ih => rw [walkItems, ih, List.flatMap_cons]

theorem walkMembers_eq (ms : List (String × Value)) :
    walkMembers ms = ms.flatMap fun m => m.2.walk := by
  induction ms with
  | nil => rfl
  | cons m ms ih => rw [walkMembers, ih, List.flatMap_cons]

/-- A condition holds of a value and of everything inside it. -/
def All (P : Value → Prop) (v : Value) : Prop := ∀ w ∈ v.walk, P w

instance (P : Value → Prop) [DecidablePred P] (v : Value) : Decidable (v.All P) :=
  inferInstanceAs (Decidable (∀ w ∈ v.walk, P w))

section

variable {P : Value → Prop}

@[simp]
theorem all_null : All P .null ↔ P .null := List.forall_mem_singleton

@[simp]
theorem all_bool (b : Bool) : All P (.bool b) ↔ P (.bool b) := List.forall_mem_singleton

@[simp]
theorem all_number (n : Number) : All P (.number n) ↔ P (.number n) := List.forall_mem_singleton

@[simp]
theorem all_string (s : String) : All P (.string s) ↔ P (.string s) := List.forall_mem_singleton

@[simp]
theorem all_array (items : List Value) :
    All P (.array items) ↔ P (.array items) ∧ ∀ v ∈ items, v.All P := by
  rw [All, walk, List.forall_mem_cons, walkItems_eq, List.forall_mem_flatMap]
  rfl

@[simp]
theorem all_object (members : List (String × Value)) :
    All P (.object members) ↔ P (.object members) ∧ ∀ m ∈ members, m.2.All P := by
  rw [All, walk, List.forall_mem_cons, walkMembers_eq, List.forall_mem_flatMap]
  rfl

theorem All.imp {Q : Value → Prop} (weaker : ∀ w, P w → Q w) {v : Value} (all : v.All P) :
    v.All Q := fun w inside => weaker w (all w inside)

end

/-- If a value is an object, no key stands twice in it. -/
def HasDistinctKeys : Value → Prop
  | .object members => (Entries.keys members).Nodup
  | _ => True

instance : DecidablePred HasDistinctKeys
  | .object members => inferInstanceAs (Decidable (Entries.keys members).Nodup)
  | .null | .bool _ | .number _ | .string _ | .array _ => isTrue trivial

/-! ## Trees as lists -/

theorem itemTrees_eq (vs : List Value) : itemTrees vs = vs.map toTree := by
  induction vs with
  | nil => rfl
  | cons v vs ih => rw [itemTrees, ih, List.map_cons]

theorem memberTrees_eq (ms : List (String × Value)) :
    memberTrees ms = ms.map fun m => (m.1, m.2.toTree) := by
  induction ms with
  | nil => rfl
  | cons m ms ih => rw [memberTrees, ih, List.map_cons]

/-! ## Depth -/

mutual

/-- The number of arrays and objects around the innermost part of a value. -/
def depth : Value → Nat
  | .array items => itemsDepth items + 1
  | .object members => membersDepth members + 1
  | _ => 0
termination_by structural v => v

/-- The greatest depth of an item. -/
def itemsDepth : List Value → Nat
  | [] => 0
  | v :: vs => max (depth v) (itemsDepth vs)
termination_by structural vs => vs

/-- The greatest depth of the value of a member. -/
def membersDepth : List (String × Value) → Nat
  | [] => 0
  | (_, v) :: ms => max (depth v) (membersDepth ms)
termination_by structural ms => ms

end

theorem itemsDepth_le_iff {vs : List Value} {room : Nat} :
    itemsDepth vs ≤ room ↔ ∀ v ∈ vs, v.depth ≤ room := by
  induction vs with
  | nil => simp [itemsDepth]
  | cons v vs ih => rw [itemsDepth, Nat.max_le, ih, List.forall_mem_cons]

theorem membersDepth_le_iff {ms : List (String × Value)} {room : Nat} :
    membersDepth ms ≤ room ↔ ∀ m ∈ ms, m.2.depth ≤ room := by
  induction ms with
  | nil => simp [membersDepth]
  | cons m ms ih => rw [membersDepth, Nat.max_le, ih, List.forall_mem_cons]

theorem depth_array_le_iff {items : List Value} {room : Nat} :
    (array items).depth ≤ room + 1 ↔ ∀ v ∈ items, v.depth ≤ room := by
  rw [depth, Nat.add_le_add_iff_right, itemsDepth_le_iff]

theorem depth_object_le_iff {members : List (String × Value)} {room : Nat} :
    (object members).depth ≤ room + 1 ↔ ∀ m ∈ members, m.2.depth ≤ room := by
  rw [depth, Nat.add_le_add_iff_right, membersDepth_le_iff]

/-! ## Trees with limited room -/

mutual

/-- The tree of a value with room for so many levels of arrays and objects. -/
def treeWithin : Nat → Value → Tree
  | 0, .array _ => .illegible
  | room + 1, .array items => .array (itemTreesWithin room items)
  | 0, .object _ => .illegible
  | room + 1, .object members => .object (memberTreesWithin room members)
  | _, .null => .null
  | _, .bool b => .bool b
  | _, .number n => .number n
  | _, .string s => .string s
termination_by structural _ v => v

/-- The trees of items. -/
def itemTreesWithin : Nat → List Value → List Tree
  | _, [] => []
  | room, v :: vs => treeWithin room v :: itemTreesWithin room vs
termination_by structural _ vs => vs

/-- The trees of members. -/
def memberTreesWithin : Nat → List (String × Value) → List (String × Tree)
  | _, [] => []
  | room, (key, v) :: ms => (key, treeWithin room v) :: memberTreesWithin room ms
termination_by structural _ ms => ms

end

theorem itemTreesWithin_eq (room : Nat) (vs : List Value) :
    itemTreesWithin room vs = vs.map (treeWithin room) := by
  induction vs with
  | nil => rfl
  | cons v vs ih => rw [itemTreesWithin, ih, List.map_cons]

theorem memberTreesWithin_eq (room : Nat) (ms : List (String × Value)) :
    memberTreesWithin room ms = ms.map fun m => (m.1, m.2.treeWithin room) := by
  induction ms with
  | nil => rfl
  | cons m ms ih => rw [memberTreesWithin, ih, List.map_cons]

/-- A value that fits has its whole tree. -/
theorem treeWithin_eq_toTree {v : Value} {room : Nat} (fits : v.depth ≤ room) :
    v.treeWithin room = v.toTree := by
  induction v using partInduction generalizing room with
  | null | bool | number | string => cases room <;> rfl
  | array items ih =>
      cases room with
      | zero => cases fits
      | succ room =>
          rw [depth_array_le_iff] at fits
          rw [treeWithin, toTree, itemTreesWithin_eq, itemTrees_eq]
          exact congrArg Tree.array (List.map_congr_left fun v member =>
            ih v member (fits v member))
  | object members ih =>
      cases room with
      | zero => cases fits
      | succ room =>
          rw [depth_object_le_iff] at fits
          rw [treeWithin, toTree, memberTreesWithin_eq, memberTrees_eq]
          exact congrArg Tree.object (List.map_congr_left fun m member =>
            congrArg (Prod.mk m.1) (ih m member (fits m member)))

end Value

namespace Tree

theorem itemsLegible_eq (ts : List Tree) : itemsLegible ts = ts.all isLegible := by
  induction ts with
  | nil => rfl
  | cons t ts ih => rw [itemsLegible, ih, List.all_cons]

theorem membersLegible_eq (ms : List (String × Tree)) :
    membersLegible ms = ms.all fun m => m.2.isLegible := by
  induction ms with
  | nil => rfl
  | cons m ms ih => rw [membersLegible, ih, List.all_cons]

/-- A tree with limited room is legible exactly when its value fits. -/
theorem isLegible_treeWithin_iff {v : Value} {room : Nat} :
    (v.treeWithin room).isLegible = true ↔ v.depth ≤ room := by
  induction v using Value.partInduction generalizing room with
  | null | bool | number | string => cases room <;> exact iff_of_true rfl (Nat.zero_le _)
  | array items ih =>
      cases room with
      | zero => exact iff_of_false Bool.false_ne_true (Nat.not_succ_le_zero _)
      | succ room =>
          rw [Value.treeWithin, isLegible, itemsLegible_eq, Value.itemTreesWithin_eq,
            List.all_map, List.all_eq_true, Value.depth_array_le_iff]
          exact forall₂_congr fun v member => ih v member
  | object members ih =>
      cases room with
      | zero => exact iff_of_false Bool.false_ne_true (Nat.not_succ_le_zero _)
      | succ room =>
          rw [Value.treeWithin, isLegible, membersLegible_eq, Value.memberTreesWithin_eq,
            List.all_map, List.all_eq_true, Value.depth_object_le_iff]
          exact forall₂_congr fun m member => ih m member

theorem isLegible_toTree (v : Value) : v.toTree.isLegible = true := by
  rw [← Value.treeWithin_eq_toTree (Nat.le_refl v.depth)]
  exact isLegible_treeWithin_iff.mpr (Nat.le_refl v.depth)

/-! ## Values of lists of trees -/

/-- Trees stand for a list of values exactly when each stands for the value in its place. -/
theorem itemValues?_eq_some_iff {ts : List Tree} {vs : List Value} :
    itemValues? ts = some vs ↔ List.Forall₂ (fun t v => t.toValue? = some v) ts vs := by
  induction ts generalizing vs with
  | nil => rw [itemValues?, List.forall₂_nil_left_iff, Option.some.injEq, eq_comm]
  | cons t ts ih =>
      rw [itemValues?]
      simp only [List.forall₂_cons_left_iff, ← ih]
      cases t.toValue? <;> cases itemValues? ts <;> simp [eq_comm]

/-- Members stand for members exactly when each stands for the one in its place. -/
theorem memberValues?_eq_some_iff {ms : List (String × Tree)} {vs : List (String × Value)} :
    memberValues? ms = some vs ↔
      List.Forall₂ (fun m v => m.1 = v.1 ∧ m.2.toValue? = some v.2) ms vs := by
  induction ms generalizing vs with
  | nil => rw [memberValues?, List.forall₂_nil_left_iff, Option.some.injEq, eq_comm]
  | cons m ms ih =>
      obtain ⟨key, t⟩ := m
      rw [memberValues?]
      simp only [List.forall₂_cons_left_iff, ← ih]
      cases t.toValue? <;> cases memberValues? ms <;> simp [eq_comm]

end Tree

end ScreenFlow.Json
