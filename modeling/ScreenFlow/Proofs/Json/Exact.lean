import ScreenFlow.Proofs.Json.Integers

/-!
# Trees without doubled keys

Where all parts are legible and no key stands twice in an object, a tree says exactly one value, and
that value says nothing but this tree.
-/

namespace ScreenFlow.Json.Tree

/-- The keys of an object as they stand. -/
def keys : Tree → List String
  | .object members => Entries.keys members
  | _ => []

/-- No object in a tree has a key twice. -/
inductive HasDistinctKeys : Tree → Prop where
  | intro {t : Tree} (here : t.keys.Nodup) (inside : ∀ part ∈ t.parts, part.HasDistinctKeys) :
      t.HasDistinctKeys

theorem HasDistinctKeys.of_mem_items {items : List Tree}
    (distinct : (array items).HasDistinctKeys) : ∀ t ∈ items, t.HasDistinctKeys := by
  obtain ⟨-, inside⟩ := distinct
  exact inside

theorem HasDistinctKeys.of_mem_members {members : List (String × Tree)}
    (distinct : (object members).HasDistinctKeys) :
    (Entries.keys members).Nodup ∧ ∀ m ∈ members, m.2.HasDistinctKeys := by
  obtain ⟨here, inside⟩ := distinct
  exact ⟨here, List.forall_mem_map.mp inside⟩

theorem keys_memberTrees (ms : List (String × Value)) :
    Entries.keys (ms.map fun m => (m.1, m.2.toTree)) = Entries.keys ms :=
  List.map_map

/-- The tree of a value without doubled keys has none. -/
theorem hasDistinctKeys_toTree {v : Value} (distinct : v.All Value.HasDistinctKeys) :
    v.toTree.HasDistinctKeys := by
  induction v using Value.partInduction with
  | null | bool | number | string => exact ⟨List.nodup_nil, List.forall_mem_nil _⟩
  | array vs ih =>
      rw [Value.all_array] at distinct
      rw [Value.toTree, Value.itemTrees_eq]
      refine ⟨List.nodup_nil, List.forall_mem_map.mpr fun v member => ?_⟩
      exact ih v member (distinct.2 v member)
  | object ms ih =>
      rw [Value.all_object] at distinct
      rw [Value.toTree, Value.memberTrees_eq]
      constructor
      · rw [keys, keys_memberTrees]
        exact distinct.1
      · refine List.forall_mem_map.mpr (List.forall_mem_map.mpr fun m member => ?_)
        exact ih m member (distinct.2 m member)

/-! ## The value of a tree -/

theorem isSome_itemValues? (ts : List Tree) :
    (itemValues? ts).isSome = ts.all fun t => t.toValue?.isSome := by
  induction ts with
  | nil => rfl
  | cons t ts ih =>
      rw [itemValues?, List.all_cons, ← ih]
      cases t.toValue? <;> cases itemValues? ts <;> rfl

theorem isSome_memberValues? (ms : List (String × Tree)) :
    (memberValues? ms).isSome = ms.all fun m => m.2.toValue?.isSome := by
  induction ms with
  | nil => rfl
  | cons m ms ih =>
      rw [memberValues?, List.all_cons, ← ih]
      cases m.2.toValue? <;> cases memberValues? ms <;> rfl

/-- The legible trees are those that stand for a value. -/
theorem isSome_toValue? (t : Tree) : t.toValue?.isSome = t.isLegible := by
  induction t using partInduction with
  | null | bool | number | string | illegible => rfl
  | array ts ih =>
      rw [toValue?, Option.isSome_map, isSome_itemValues?, isLegible, itemsLegible_eq,
        Bool.eq_iff_iff, List.all_eq_true, List.all_eq_true]
      exact forall₂_congr fun t member => by rw [ih t member]
  | object ms ih =>
      rw [toValue?, Option.isSome_map, isSome_memberValues?, isLegible, membersLegible_eq,
        Bool.eq_iff_iff, List.all_eq_true, List.all_eq_true]
      exact forall₂_congr fun m member => by rw [ih m member]

/-- Where no key is doubled, the value of a tree has this tree. -/
theorem toTree_of_toValue? {t : Tree} {v : Value} (distinct : t.HasDistinctKeys)
    (read : t.toValue? = some v) : v.toTree = t := by
  induction t using partInduction generalizing v with
  | null | bool | number | string => cases read; rfl
  | array ts ih =>
      obtain ⟨vs, items, rfl⟩ := Option.map_eq_some_iff.mp read
      rw [itemValues?_eq_some_iff] at items
      have each : ∀ t ∈ ts, ∀ v, t.toValue? = some v → v.toTree = t := fun t member v =>
        ih t member (distinct.of_mem_items t member)
      have same : ts = vs.map Value.toTree := by
        rw [← List.forall₂_eq_eq_eq, List.forall₂_map_right_iff]
        exact ((List.forall₂_and_left _ _).mpr ⟨each, items⟩).imp fun t v both =>
          (both.1 v both.2).symm
      rw [Value.toTree, Value.itemTrees_eq, ← same]
  | object ms ih =>
      obtain ⟨here, parts⟩ := distinct.of_mem_members
      obtain ⟨vs, members, rfl⟩ := Option.map_eq_some_iff.mp read
      rw [memberValues?_eq_some_iff] at members
      have each : ∀ m ∈ ms, ∀ v, m.2.toValue? = some v → v.toTree = m.2 := fun m member v =>
        ih m member (parts m member)
      have same : ms = vs.map fun v => (v.1, v.2.toTree) := by
        rw [← List.forall₂_eq_eq_eq, List.forall₂_map_right_iff]
        exact ((List.forall₂_and_left _ _).mpr ⟨each, members⟩).imp fun m v both =>
          Prod.ext both.2.1 (both.1 v.2 both.2.2).symm
      rw [same, keys_memberTrees] at here
      rw [Entries.ofMembers_eq_self here, Value.toTree, Value.memberTrees_eq, ← same]
  | illegible => cases read

end ScreenFlow.Json.Tree
