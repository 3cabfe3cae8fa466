import Mathlib.Data.List.Basic
import Mathlib.Data.List.Induction
import ScreenFlow.Distinct

/-!
# First occurrences

No key is lost and none is listed twice. Which elements are first ones depends on the set of seen
keys alone, so lists can be taken apart, and taking the first ones of a part beforehand changes
nothing.
-/

namespace ScreenFlow

variable {α : Type}

/-! ## What is listed -/

theorem mem_map_firstsFrom {key : α → String} {seen : List String} {as : List α} {k : String} :
    k ∈ (firstsFrom key seen as).map key ↔ k ∈ as.map key ∧ k ∉ seen := by
  induction as generalizing seen with
  | nil => simp [firstsFrom]
  | cons a as ih =>
      rw [firstsFrom, List.map_cons, List.mem_cons]
      by_cases old : key a ∈ seen
      · rw [if_pos old, ih]
        constructor
        · exact fun ⟨later, fresh⟩ => ⟨.inr later, fresh⟩
        · rintro ⟨rfl | later, fresh⟩
          · exact absurd old fresh
          · exact ⟨later, fresh⟩
      · rw [if_neg old, List.map_cons, List.mem_cons, ih, List.mem_cons, not_or]
        constructor
        · rintro (rfl | ⟨later, -, fresh⟩)
          · exact ⟨.inl rfl, old⟩
          · exact ⟨.inr later, fresh⟩
        · rintro ⟨rfl | later, fresh⟩
          · exact .inl rfl
          · by_cases here : k = key a
            · exact .inl here
            · exact .inr ⟨later, here, fresh⟩

/-- No key is lost. -/
theorem mem_map_firsts {key : α → String} {as : List α} {k : String} :
    k ∈ (firsts key as).map key ↔ k ∈ as.map key := by
  simp [firsts, mem_map_firstsFrom]

theorem nodup_map_firstsFrom (key : α → String) (seen : List String) (as : List α) :
    ((firstsFrom key seen as).map key).Nodup := by
  induction as generalizing seen with
  | nil => simp [firstsFrom]
  | cons a as ih =>
      rw [firstsFrom]
      by_cases old : key a ∈ seen
      · rw [if_pos old]
        exact ih seen
      · rw [if_neg old, List.map_cons, List.nodup_cons, mem_map_firstsFrom]
        exact ⟨fun again => again.2 List.mem_cons_self, ih _⟩

/-- No key is listed twice. -/
theorem nodup_map_firsts (key : α → String) (as : List α) : ((firsts key as).map key).Nodup :=
  nodup_map_firstsFrom key [] as

theorem length_firstsFrom_add_repeatsFrom (key : α → String) (seen : List String) (as : List α) :
    (firstsFrom key seen as).length + (repeatsFrom key seen as).length = as.length := by
  induction as generalizing seen with
  | nil => rfl
  | cons a as ih =>
      rw [firstsFrom, repeatsFrom, List.length_cons]
      by_cases old : key a ∈ seen
      · rw [if_pos old, if_pos old, List.length_cons, ← ih seen, Nat.add_assoc]
      · rw [if_neg old, if_neg old, List.length_cons, ← ih (key a :: seen), Nat.add_right_comm]

/-- An element is listed either as a first one or as a repeat. -/
theorem length_firsts_add_repeats (key : α → String) (as : List α) :
    (firsts key as).length + (repeats key as).length = as.length :=
  length_firstsFrom_add_repeatsFrom key [] as

/-! ## Seen keys -/

theorem firstsFrom_congr (key : α → String) {seen seen' : List String}
    (same : ∀ k, k ∈ seen ↔ k ∈ seen') (as : List α) :
    firstsFrom key seen as = firstsFrom key seen' as := by
  induction as generalizing seen seen' with
  | nil => rfl
  | cons a as ih =>
      have next : ∀ k, k ∈ key a :: seen ↔ k ∈ key a :: seen' := by
        intro k
        rw [List.mem_cons, List.mem_cons, same k]
      rw [firstsFrom, firstsFrom, ih same, ih next]
      by_cases h : key a ∈ seen
      · rw [if_pos h, if_pos ((same (key a)).mp h)]
      · rw [if_neg h, if_neg fun h' => h ((same (key a)).mpr h')]

theorem firstsFrom_sublist (key : α → String) (seen : List String) (as : List α) :
    (firstsFrom key seen as).Sublist as := by
  induction as generalizing seen with
  | nil => exact .slnil
  | cons a as ih =>
      rw [firstsFrom]
      split
      · exact (ih seen).cons a
      · exact (ih (key a :: seen)).cons_cons a

theorem map_firstsFrom (key : α → String) (seen : List String) (as : List α) :
    (firstsFrom key seen as).map key = firstsFrom id seen (as.map key) := by
  induction as generalizing seen with
  | nil => rfl
  | cons a as ih =>
      rw [List.map_cons, firstsFrom, firstsFrom]
      by_cases h : key a ∈ seen
      · rw [if_pos h, if_pos (show id (key a) ∈ seen from h), ih]
      · rw [if_neg h, if_neg (show id (key a) ∉ seen from h), List.map_cons, ih]
        rfl

/-- Keys seen in addition only remove elements. -/
theorem firstsFrom_append_seen (key : α → String) (more seen : List String) (as : List α) :
    firstsFrom key (more ++ seen) as =
      (firstsFrom key seen as).filter fun a => key a ∉ more := by
  induction as generalizing seen with
  | nil => rfl
  | cons a as ih =>
      -- The key of the head joins the seen ones; it stands behind `more` in one list, before it in
      -- the other, and the order of seen keys does not matter.
      have next : firstsFrom key (key a :: (more ++ seen)) as =
          (firstsFrom key (key a :: seen) as).filter fun a => key a ∉ more := by
        rw [← ih]
        exact firstsFrom_congr key (fun k => List.perm_middle.mem_iff.symm) as
      by_cases seenBefore : key a ∈ seen
      · rw [firstsFrom, firstsFrom, if_pos seenBefore,
          if_pos (List.mem_append_right more seenBefore), ih]
      · by_cases among : key a ∈ more
        -- A first one without `more`, which the filter drops; with `more` it never is one.
        · have skip : firstsFrom key (key a :: (more ++ seen)) as =
              firstsFrom key (more ++ seen) as :=
            firstsFrom_congr key (fun k => by
              rw [List.mem_cons]
              exact or_iff_right_of_imp fun same => same ▸ List.mem_append_left seen among) as
          rw [firstsFrom, firstsFrom, if_neg seenBefore,
            if_pos (List.mem_append_left seen among),
            List.filter_cons_of_neg (by simpa using among), ← next, skip]
        · have fresh : key a ∉ more ++ seen := by
            rw [List.mem_append]
            intro h
            exact h.elim among seenBefore
          rw [firstsFrom, firstsFrom, if_neg seenBefore, if_neg fresh,
            List.filter_cons_of_pos (by simpa using among), next]

theorem firstsFrom_eq_filter_firsts (key : α → String) (seen : List String) (as : List α) :
    firstsFrom key seen as = (firsts key as).filter fun a => key a ∉ seen := by
  rw [firsts, ← firstsFrom_append_seen, List.append_nil]

/-- Distinct keys are all first ones. -/
theorem firsts_eq_self (key : α → String) {as : List α} (distinct : (as.map key).Nodup) :
    firsts key as = as := by
  induction as with
  | nil => rfl
  | cons a as ih =>
      rw [List.map_cons, List.nodup_cons] at distinct
      have others : firstsFrom key [key a] as = as := by
        rw [firstsFrom_eq_filter_firsts, ih distinct.2, List.filter_eq_self]
        intro b member
        have differs : key b ≠ key a := fun same =>
          distinct.1 (same ▸ List.mem_map_of_mem member)
        simpa using differs
      rw [firsts, firstsFrom, if_neg List.not_mem_nil, others]

theorem repeatsFrom_eq_nil_iff (key : α → String) (seen : List String) (as : List α) :
    repeatsFrom key seen as = [] ↔ (as.map key).Nodup ∧ ∀ k ∈ as.map key, k ∉ seen := by
  induction as generalizing seen with
  | nil => simp [repeatsFrom]
  | cons a as ih =>
      rw [repeatsFrom, List.map_cons, List.nodup_cons, List.forall_mem_cons]
      by_cases h : key a ∈ seen
      · rw [if_pos h]
        -- A key that was seen is a repeat, and it is also an old key on the right.
        exact iff_of_false (List.cons_ne_nil _ _) fun all => all.2.1 h
      · rw [if_neg h, ih]
        constructor
        · rintro ⟨distinct, fresh⟩
          exact ⟨⟨fun member => fresh _ member List.mem_cons_self, distinct⟩, h,
            fun k member before => fresh k member (List.mem_cons_of_mem _ before)⟩
        · rintro ⟨⟨alone, distinct⟩, -, fresh⟩
          refine ⟨distinct, ?_⟩
          intro k member before
          rcases List.mem_cons.mp before with rfl | before
          · exact alone member
          · exact fresh k member before

/-- There are no repeats exactly when the keys are distinct. -/
theorem repeats_eq_nil_iff (key : α → String) (as : List α) :
    repeats key as = [] ↔ (as.map key).Nodup := by
  rw [repeats, repeatsFrom_eq_nil_iff]
  exact and_iff_left fun _ _ => List.not_mem_nil

theorem repeatsFrom_eq (key : α → String) {seen : List String} {before : List α}
    (same : ∀ k, k ∈ seen ↔ k ∈ before.map key) (as : List α) :
    repeatsFrom key seen as = ((as.zipIdx before.length).filter fun c =>
      key c.1 ∈ ((before ++ as).take c.2).map key).map Prod.fst := by
  -- What came before grows with every element, and so do the keys that were seen.
  induction as generalizing seen before with
  | nil => rfl
  | cons a as ih =>
      have grown : ∀ k, k ∈ key a :: seen ↔ k ∈ (before ++ [a]).map key := by
        intro k
        rw [List.map_append, List.mem_append, List.mem_cons, same k, or_comm, List.map_singleton,
          List.mem_singleton]
      have unchanged (repeated : key a ∈ seen) : ∀ k, k ∈ seen ↔ k ∈ (before ++ [a]).map key := by
        intro k
        rw [← grown k, List.mem_cons]
        constructor
        · exact Or.inr
        · rintro (rfl | old)
          · exact repeated
          · exact old
      have first : (key a ∈ ((before ++ a :: as).take before.length).map key) ↔ key a ∈ seen := by
        rw [List.take_left, same]
      rw [repeatsFrom, List.zipIdx_cons, List.filter_cons]
      simp only [decide_eq_true_eq, first]
      by_cases repeated : key a ∈ seen
      · rw [if_pos repeated, if_pos repeated, ih (unchanged repeated)]
        simp
      · rw [if_neg repeated, if_neg repeated, ih grown]
        simp

/-- The repeats are the elements whose key stands before them. -/
theorem repeats_eq (key : α → String) (as : List α) : repeats key as =
    (as.zipIdx.filter fun c => key c.1 ∈ (as.take c.2).map key).map Prod.fst :=
  @repeatsFrom_eq _ key [] [] (fun _ => Iff.rfl) as

/-! ## Lists in parts -/

theorem firstsFrom_append (key : α → String) (seen : List String) (as bs : List α) :
    firstsFrom key seen (as ++ bs) =
      firstsFrom key seen as ++ firstsFrom key (as.map key ++ seen) bs := by
  induction as generalizing seen with
  | nil => rfl
  | cons a as ih =>
      rw [List.cons_append, firstsFrom, firstsFrom, List.map_cons, List.cons_append]
      by_cases h : key a ∈ seen
      · rw [if_pos h, if_pos h, ih]
        congr 1
        apply firstsFrom_congr
        intro k
        rw [List.mem_cons]
        exact (or_iff_right_of_imp fun same => same ▸ List.mem_append_right _ h).symm
      · rw [if_neg h, if_neg h, ih, List.cons_append]
        exact congrArg _ (congrArg _ (firstsFrom_congr key (fun k => List.perm_middle.mem_iff) bs))

/-- Taking the first ones beforehand changes nothing. -/
theorem firstsFrom_firstsFrom (key : α → String) {seen seen' : List String}
    (sub : ∀ k ∈ seen', k ∈ seen) (as : List α) :
    firstsFrom key seen (firstsFrom key seen' as) = firstsFrom key seen as := by
  -- The inner pass may only have seen keys that the outer one has seen too. Both lists of seen keys
  -- grow, so they are generalised together.
  induction as generalizing seen seen' with
  | nil => rfl
  | cons a as ih =>
      rw [firstsFrom, firstsFrom]
      by_cases before : key a ∈ seen'
      · rw [if_pos before, if_pos (sub _ before), ih sub]
      · rw [if_neg before, firstsFrom]
        by_cases h : key a ∈ seen
        -- Seen by the outer pass alone: the inner one keeps the element, the outer one drops it.
        · have skip : ∀ k ∈ key a :: seen', k ∈ seen := by
            intro k member
            rcases List.mem_cons.mp member with rfl | member
            · exact h
            · exact sub k member
          rw [if_pos h, if_pos h, ih skip]
        · have keep : ∀ k ∈ key a :: seen', k ∈ key a :: seen := by
            intro k member
            rcases List.mem_cons.mp member with rfl | member
            · exact List.mem_cons_self
            · exact List.mem_cons_of_mem _ (sub k member)
          rw [if_neg h, if_neg h, ih keep]

/-- The first ones over all parts are those among the first ones of each part. -/
theorem firsts_flatMap_firsts {β : Type} (key : α → String) (part : β → List α) (bs : List β) :
    firsts key (bs.flatMap fun b => firsts key (part b)) = firsts key (bs.flatMap part) := by
  -- A part meets the keys of all parts before it, so the induction needs any seen keys.
  suffices h : ∀ seen, firstsFrom key seen (bs.flatMap fun b => firsts key (part b)) =
      firstsFrom key seen (bs.flatMap part) from h []
  induction bs with
  | nil => exact fun _ => rfl
  | cons b bs ih =>
      intro seen
      have sameKeys : ∀ k, k ∈ (firsts key (part b)).map key ++ seen ↔
          k ∈ (part b).map key ++ seen := by
        intro k
        rw [List.mem_append, List.mem_append, mem_map_firsts]
      rw [List.flatMap_cons, List.flatMap_cons, firstsFrom_append, firstsFrom_append, ih,
        firstsFrom_congr key sameKeys]
      congr 1
      exact firstsFrom_firstsFrom key (List.forall_mem_nil _) (part b)

/-- The first ones of a list in two parts are those of the first part, and of the second part those
with new keys. -/
theorem firsts_append (key : α → String) (as bs : List α) :
    firsts key (as ++ bs) =
      firsts key as ++ (firsts key bs).filter fun b => key b ∉ (firsts key as).map key := by
  have sameKeys : ∀ k, k ∈ as.map key ++ [] ↔ k ∈ (firsts key as).map key := by
    intro k
    rw [List.append_nil, mem_map_firsts]
  rw [← firstsFrom_eq_filter_firsts, ← firstsFrom_congr key sameKeys bs]
  exact firstsFrom_append key [] as bs

/-- What elements give for the first time is what no element before gives under the same key. -/
theorem firsts_filterMap {β : Type} (f : β → Option α) (key : α → String) (bs : List β) :
    firsts key (bs.filterMap f) = bs.zipIdx.filterMap fun c =>
      (f c.1).filter fun a => key a ∉ ((bs.take c.2).filterMap f).map key := by
  induction bs using List.reverseRecOn with
  | nil => rfl
  | append_singleton bs b ih =>
      -- The last element comes after all others, so it changes nothing for them.
      have before : (bs.zipIdx.filterMap fun c => (f c.1).filter fun a =>
          key a ∉ (((bs ++ [b]).take c.2).filterMap f).map key) = firsts key (bs.filterMap f) := by
        rw [ih]
        apply List.filterMap_congr
        intro c member
        have inside : c.2 ≤ bs.length := by
          have := List.snd_lt_of_mem_zipIdx member
          omega
        rw [List.take_append_of_le_length inside]
      rw [List.filterMap_append, firsts, firstsFrom_append, List.zipIdx_append,
        List.filterMap_append, before, firsts]
      congr 1
      rw [List.zipIdx_cons, List.zipIdx_nil, Nat.zero_add, List.append_nil]
      cases gives : f b with
      | none => simp [gives, firstsFrom]
      | some a =>
          by_cases old : key a ∈ (bs.filterMap f).map key
          · simp only [List.filterMap_cons, List.filterMap_nil, gives, firstsFrom, List.take_left,
              Option.filter_some, old, not_true_eq_false, decide_false, if_true, Bool.false_eq_true,
              if_false]
          · simp only [List.filterMap_cons, List.filterMap_nil, gives, firstsFrom, List.take_left,
              Option.filter_some, old, not_false_eq_true, decide_true, if_true, if_false]

/-- More elements at the end add first ones at the end only. -/
theorem firsts_prefix (key : α → String) {as bs : List α} (starts : as <+: bs) :
    firsts key as <+: firsts key bs := by
  obtain ⟨more, rfl⟩ := starts
  rw [firsts_append]
  exact List.prefix_append _ _

theorem find?_firstsFrom (key : α → String) {seen : List String} {k : String} (fresh : k ∉ seen)
    (as : List α) :
    ((firstsFrom key seen as).find? fun a => key a == k) = as.find? fun a => key a == k := by
  -- The key that is looked for stays unseen until it is found.
  induction as generalizing seen with
  | nil => rfl
  | cons a as ih =>
      rw [firstsFrom]
      by_cases same : key a = k
      · rw [if_neg (same ▸ fresh)]
        simp [same]
      · have later : k ∉ key a :: seen := by
          rw [List.mem_cons, not_or]
          exact ⟨Ne.symm same, fresh⟩
        by_cases before : key a ∈ seen
        · rw [if_pos before, ih fresh]
          simp [same]
        · rw [if_neg before]
          simp [same, ih later]

/-- The first one of a key is the element that is found first. -/
theorem find?_firsts (key : α → String) (as : List α) (k : String) :
    ((firsts key as).find? fun a => key a == k) = as.find? fun a => key a == k :=
  find?_firstsFrom key List.not_mem_nil as

end ScreenFlow
