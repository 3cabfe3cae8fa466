import ScreenFlow.Entries
import ScreenFlow.Proofs.Firsts

/-!
# Ordered maps

Keys stay distinct, and setting a key leaves the values of all others. A map is filled either by
entries whose keys are new, which is a choice of first ones, or by distinct keys, which is the list
itself.
-/

namespace ScreenFlow.Entries

variable {α : Type}

/-! ## Keys -/

@[simp]
theorem keys_nil : keys ([] : Entries α) = [] := rfl

@[simp]
theorem keys_cons (k : String) (a : α) (es : Entries α) : keys ((k, a) :: es) = k :: keys es := rfl

theorem keys_put (es : Entries α) (key : String) (a : α) :
    (es.put key a).keys = if key ∈ es.keys then es.keys else es.keys ++ [key] := by
  induction es with
  | nil => simp [put]
  | cons e es ih =>
      obtain ⟨k, b⟩ := e
      by_cases here : k = key
      · simp [put, here]
      · have differs : key ≠ k := Ne.symm here
        by_cases later : key ∈ keys es
        · simp [put, here, ih, later]
        · simp [put, here, differs, ih, later]

theorem keys_putNew (es : Entries α) (key : String) (a : α) :
    (es.putNew key a).keys = if key ∈ es.keys then es.keys else es.keys ++ [key] := by
  unfold putNew
  split
  · rfl
  · simp [keys]

theorem nodup_keys_put {es : Entries α} (distinct : es.keys.Nodup) (key : String) (a : α) :
    (es.put key a).keys.Nodup := by
  rw [keys_put]
  by_cases old : key ∈ es.keys
  · rwa [if_pos old]
  · rw [if_neg old, List.nodup_append]
    refine ⟨distinct, by simp, ?_⟩
    intro k member k' last same
    rw [List.mem_singleton] at last
    exact old (last ▸ same ▸ member)

theorem put_of_not_mem (es : Entries α) {key : String} (fresh : key ∉ es.keys) (a : α) :
    es.put key a = es ++ [(key, a)] := by
  induction es with
  | nil => rfl
  | cons e es ih =>
      obtain ⟨k, b⟩ := e
      rw [keys_cons, List.mem_cons, not_or] at fresh
      rw [put, if_neg (Ne.symm fresh.1), ih fresh.2, List.cons_append]

/-! ## Values -/

theorem get?_put_self (es : Entries α) (key : String) (a : α) :
    (es.put key a).get? key = some a := by
  induction es with
  | nil => simp [put, get?]
  | cons e es ih =>
      obtain ⟨k, b⟩ := e
      rw [get?] at ih
      by_cases here : k = key
      · simp [put, get?, here]
      · simp [put, get?, here, ih]

theorem get?_put_of_ne (es : Entries α) {key other : String} (differs : other ≠ key) (a : α) :
    (es.put key a).get? other = es.get? other := by
  induction es with
  | nil => simp [put, get?, Ne.symm differs]
  | cons e es ih =>
      obtain ⟨k, b⟩ := e
      rw [get?, get?] at ih
      by_cases here : k = key
      · simp [put, get?, here, Ne.symm differs]
      · rw [put, if_neg here]
        by_cases found : k = other
        · simp [get?, found]
        · simp [get?, found, ih]

theorem get?_append (es more : Entries α) (key : String) :
    get? (es ++ more) key = (es.get? key).or (more.get? key) := by
  rw [get?, List.find?_append, Option.map_or]
  rfl

theorem get?_map_values {β : Type} (f : α → β) (es : Entries α) (key : String) :
    get? (es.map fun e => (e.1, f e.2)) key = (es.get? key).map f := by
  rw [get?, get?, List.find?_map, Option.map_map, Option.map_map]
  rfl

theorem get?_eq_none_iff {es : Entries α} {key : String} : es.get? key = none ↔ key ∉ es.keys := by
  rw [get?, Option.map_eq_none_iff, List.find?_eq_none, keys, List.mem_map]
  simp only [beq_iff_eq, not_exists, not_and]

/-- An entry whose key stands once is the one that is found. -/
theorem get?_of_mem {es : Entries α} {e : String × α} (member : e ∈ es)
    (single : es.keys.count e.1 ≤ 1) : es.get? e.1 = some e.2 := by
  rw [keys, List.count, List.countP_map, List.countP_eq_length_filter] at single
  have inside : e ∈ es.filter ((· == e.1) ∘ Prod.fst) :=
    List.mem_filter.mpr ⟨member, beq_self_eq_true e.1⟩
  have first : es.find? (·.1 == e.1) = (es.filter ((· == e.1) ∘ Prod.fst)).head? :=
    List.head?_filter.symm
  obtain ⟨only, alone⟩ := List.length_eq_one_iff.mp
    (Nat.le_antisymm single (List.length_pos_of_mem inside))
  rw [alone] at inside first
  rw [get?, first, List.mem_singleton.mp inside]
  rfl

/-! ## Entries under new keys -/

/-- Entries that are added only under new keys are the first ones among them. -/
theorem putAllNew_eq (es : Entries α) (more : List (String × α)) :
    es.putAllNew more = es ++ firstsFrom Prod.fst es.keys more := by
  induction more generalizing es with
  | nil => exact (List.append_nil es).symm
  | cons m more ih =>
      have step : es.putAllNew (m :: more) = (es.putNew m.1 m.2).putAllNew more := rfl
      rw [step, ih, keys_putNew, firstsFrom, putNew]
      by_cases h : m.1 ∈ es.keys
      · rw [if_pos h, if_pos h, if_pos h]
      · rw [if_neg h, if_neg h, if_neg h, List.append_assoc, List.singleton_append]
        congr 2
        apply firstsFrom_congr
        intro k
        simp [or_comm]

/-- An entry that was there is kept; a new one is the first of its key. -/
theorem get?_putAllNew (es : Entries α) (more : List (String × α)) (key : String) :
    (es.putAllNew more).get? key = (es.get? key).or (get? more key) := by
  rw [putAllNew_eq, get?_append]
  cases old : es.get? key with
  | some a => rfl
  | none =>
      rw [Option.none_or, Option.none_or]
      exact congrArg _ (find?_firstsFrom Prod.fst (get?_eq_none_iff.mp old) more)

theorem nodup_keys_putAllNew {es : Entries α} (distinct : es.keys.Nodup)
    (more : List (String × α)) : (es.putAllNew more).keys.Nodup := by
  rw [putAllNew_eq, keys, List.map_append, List.nodup_append]
  refine ⟨distinct, nodup_map_firstsFrom Prod.fst es.keys more, ?_⟩
  intro k member k' member' same
  exact (mem_map_firstsFrom.mp member').2 (same ▸ member)

theorem mem_of_mem_putAllNew {es : Entries α} {more : List (String × α)} {e : String × α}
    (member : e ∈ es.putAllNew more) : e ∈ es ∨ e ∈ more := by
  rw [putAllNew_eq] at member
  exact (List.mem_append.mp member).imp_right fun later =>
    (firstsFrom_sublist Prod.fst es.keys more).subset later

/-! ## Maps from members -/

/-- The keys of a map are distinct, whatever the members. -/
theorem nodup_keys_ofMembers (members : List (String × α)) : (ofMembers members).keys.Nodup := by
  suffices h : ∀ es : Entries α, es.keys.Nodup →
      (members.foldl (fun es m => es.put m.1 m.2) es).keys.Nodup from h [] List.nodup_nil
  induction members with
  | nil => exact fun _ distinct => distinct
  | cons m members ih => exact fun es distinct => ih _ (nodup_keys_put distinct m.1 m.2)

/-- Distinct keys make a map as they stand. -/
theorem ofMembers_eq_self {members : List (String × α)} (distinct : keys members |>.Nodup) :
    ofMembers members = members := by
  -- The fold starts from the empty map but goes on from a longer one with every member.
  suffices h : ∀ es : Entries α, (keys (es ++ members)).Nodup →
      members.foldl (fun es m => es.put m.1 m.2) es = es ++ members from h [] distinct
  clear distinct
  induction members with
  | nil => exact fun es _ => (List.append_nil es).symm
  | cons m members ih =>
      intro es distinct
      have fresh : m.1 ∉ es.keys := by
        intro member
        rw [keys, List.map_append, List.map_cons, List.nodup_append] at distinct
        exact distinct.2.2 m.1 member m.1 List.mem_cons_self rfl
      rw [List.foldl_cons, put_of_not_mem es fresh, ih _ (by simpa using distinct),
        List.append_assoc, List.singleton_append]

theorem mem_of_mem_put {es : Entries α} {key : String} {a : α} {e : String × α}
    (member : e ∈ es.put key a) : e = (key, a) ∨ e ∈ es := by
  induction es with
  | nil => exact .inl (List.mem_singleton.mp member)
  | cons first es ih =>
      obtain ⟨k, b⟩ := first
      rw [put] at member
      split at member
      · rename_i same
        rcases List.mem_cons.mp member with here | there
        · exact .inl (same ▸ here)
        · exact .inr (List.mem_cons_of_mem _ there)
      · rcases List.mem_cons.mp member with here | there
        · exact .inr (here ▸ List.mem_cons_self)
        · exact (ih there).imp_right (List.mem_cons_of_mem _)

/-- A map holds nothing but the members it is made from. -/
theorem mem_of_mem_ofMembers {members : List (String × α)} {e : String × α}
    (member : e ∈ ofMembers members) : e ∈ members := by
  -- The map grows during the fold, so the statement is about any map to start from.
  suffices h : ∀ es : Entries α, e ∈ members.foldl (fun es m => es.put m.1 m.2) es →
      e ∈ es ∨ e ∈ members from (h [] member).resolve_left List.not_mem_nil
  clear member
  induction members with
  | nil => exact fun es member => .inl member
  | cons m members ih =>
      intro es member
      rcases ih (es.put m.1 m.2) member with old | later
      · rcases mem_of_mem_put old with here | before
        · exact .inr (here ▸ List.mem_cons_self)
        · exact .inl before
      · exact .inr (List.mem_cons_of_mem m later)

/-- The keys of a map are those of its members, where they come first. -/
theorem keys_ofMembers (members : List (String × α)) :
    (ofMembers members).keys = firsts id (members.map Prod.fst) := by
  -- The fold goes on from any map, whose keys have all been seen.
  suffices h : ∀ es : Entries α, (members.foldl (fun es m => es.put m.1 m.2) es).keys =
      es.keys ++ firstsFrom id es.keys (members.map Prod.fst) from h []
  induction members with
  | nil => exact fun es => (List.append_nil es.keys).symm
  | cons m members ih =>
      intro es
      rw [List.foldl_cons, ih, keys_put, List.map_cons, firstsFrom]
      by_cases old : m.1 ∈ es.keys
      · rw [if_pos old, if_pos (show id m.1 ∈ es.keys from old)]
      · have sameSeen : ∀ k, k ∈ es.keys ++ [m.1] ↔ k ∈ id m.1 :: es.keys := by
          intro k
          simp [or_comm]
        rw [if_neg old, if_neg (show id m.1 ∉ es.keys from old), List.append_assoc,
          List.singleton_append, firstsFrom_congr id sameSeen]

/-- The value of a key is that of the last member with the key. -/
theorem get?_ofMembers (members : List (String × α)) (key : String) :
    (ofMembers members).get? key = get? members.reverse key := by
  -- What the map to start from says counts only where no member has the key.
  suffices h : ∀ es : Entries α, (members.foldl (fun es m => es.put m.1 m.2) es).get? key =
      (get? members.reverse key).or (es.get? key) from (h []).trans (Option.or_none)
  induction members with
  | nil => exact fun es => rfl
  | cons m members ih =>
      intro es
      rw [List.foldl_cons, ih, List.reverse_cons, get?_append, Option.or_assoc]
      congr 1
      by_cases same : m.1 = key
      · rw [same, get?_put_self]
        simp [get?, same]
      · rw [get?_put_of_ne es (Ne.symm same)]
        simp [get?, same]

end ScreenFlow.Entries
