import ScreenFlow.Design.Snapshot
import ScreenFlow.Proofs.Json.Parts
import ScreenFlow.Proofs.Review.Places

/-!
# Tags of values

A value that may be an element is seen through its tags: the values that its steps lead to are the
items of arrays where an element of its kind has branches, and nothing else in it counts. The check
of kinds is a search through these values in the order of the walk: it passes if all of them name a
kind, and otherwise it reports the first that does not.
-/

namespace ScreenFlow.Json.Value

open ScreenFlow.Codec (tagKey)
open ScreenFlow.Design (Branch Kind Step)

/-! ## Tags and steps -/

/-- The items of an array. -/
def items : Value → List Value
  | .array vs => vs
  | _ => []

/-- The members of an object. -/
def members : Value → List (String × Value)
  | .object ms => ms
  | _ => []

/-- What an object has under a key, or null. -/
def member (v : Value) (key : String) : Value := (Entries.get? v.members key).getD .null

/-- The tag of a value that has a text as its tag. -/
def tag? (v : Value) : Option String :=
  match v.member tagKey with
  | .string tag => some tag
  | _ => none

/-- The kind that the tag of a value names. -/
def kind? (v : Value) : Option Kind := v.tag?.bind Kind.ofName?

/-- The steps to the items of a branch. -/
def stepsInto (branch : Branch) (vs : List Value) : List (Step × Value) :=
  (vs.zipIdx 1).map fun c => (⟨branch, c.2⟩, c.1)

/-- The steps from a value to those that stand for elements in its branches. What is no array is no
branch, and what is no object has no cases. -/
def steps (v : Value) : List (Step × Value) :=
  match v.kind? with
  | some .ifBlock =>
    stepsInto .thenBranch (v.member "then").items ++ stepsInto .elseBranch (v.member "else").items
  | some .switchBlock =>
    (v.member "cases").members.flatMap fun c => stepsInto (.caseBranch c.1) c.2.items
  | _ => []

theorem map_snd_stepsInto (branch : Branch) (vs : List Value) :
    (stepsInto branch vs).map Prod.snd = vs := by
  rw [stepsInto, List.map_map]
  exact List.zipIdx_map_fst 1 vs

/-- Steps into a branch lead to its items. -/
theorem forall_mem_stepsInto {P : Value → Prop} {branch : Branch} {vs : List Value} :
    (∀ c ∈ stepsInto branch vs, P c.2) ↔ ∀ v ∈ vs, P v := by
  rw [← List.forall_mem_map, map_snd_stepsInto]

/-! ## Steps lead inward -/

theorem depth_le_of_mem_items {v w : Value} (inside : w ∈ v.items) : w.depth + 1 ≤ v.depth := by
  cases v with
  | array vs => exact Nat.succ_le_succ (itemsDepth_le_iff.mp (Nat.le_refl _) w inside)
  | null | bool | number | string | object => cases inside

theorem depth_le_of_mem_members {v : Value} {m : String × Value} (inside : m ∈ v.members) :
    m.2.depth + 1 ≤ v.depth := by
  cases v with
  | object ms => exact Nat.succ_le_succ (membersDepth_le_iff.mp (Nat.le_refl _) m inside)
  | null | bool | number | string | array => cases inside

theorem depth_member_le (v : Value) (key : String) : (v.member key).depth ≤ v.depth := by
  unfold member
  cases found : Entries.get? v.members key with
  | none => exact Nat.zero_le _
  | some w =>
      obtain ⟨m, among, rfl⟩ := Option.map_eq_some_iff.mp found
      have less := depth_le_of_mem_members (List.mem_of_find?_eq_some among)
      exact Nat.le_of_succ_le less

theorem mem_of_mem_stepsInto {branch : Branch} {vs : List Value} {c : Step × Value}
    (stepped : c ∈ stepsInto branch vs) : c.2 ∈ vs := by
  rw [← map_snd_stepsInto branch vs]
  exact List.mem_map_of_mem stepped

theorem depth_lt_of_mem_steps {v : Value} {c : Step × Value} (stepped : c ∈ v.steps) :
    c.2.depth < v.depth := by
  have branch {key : String} (among : c.2 ∈ (v.member key).items) : c.2.depth < v.depth :=
    Nat.lt_of_lt_of_le (depth_le_of_mem_items among) (depth_member_le v key)
  unfold steps at stepped
  split at stepped
  · rcases List.mem_append.mp stepped with stepped | stepped
    · exact branch (mem_of_mem_stepsInto stepped)
    · exact branch (mem_of_mem_stepsInto stepped)
  · obtain ⟨m, among, stepped⟩ := List.mem_flatMap.mp stepped
    have inCase := depth_le_of_mem_items (mem_of_mem_stepsInto stepped)
    have inCases := depth_le_of_mem_members among
    have inside := depth_member_le v "cases"
    omega
  · cases stepped

/-- To prove something of every value, prove it of each from those that one step leads to. -/
theorem stepInduction {motive : Value → Prop}
    (step : ∀ v : Value, (∀ c ∈ v.steps, motive c.2) → motive v) (v : Value) : motive v := by
  induction depth : v.depth using Nat.strongRecOn generalizing v with
  | ind room ih =>
      apply step
      intro c stepped
      exact ih c.2.depth (depth ▸ depth_lt_of_mem_steps stepped) c.2 rfl

/-! ## All steps -/

/-- A value and all to which at most so many steps lead, each value before those behind it, with the
steps that lead there, the outermost first. -/
def placedWithin : Nat → Value → List (List Step × Value)
  | 0, v => [([], v)]
  | room + 1, v => ([], v) :: v.steps.flatMap fun c =>
    (placedWithin room c.2).map fun p => (c.1 :: p.1, p.2)

/-- A value and everything in its branches that stands for an element. There are fewer steps than
levels. -/
def placed (v : Value) : List (List Step × Value) := placedWithin v.depth v

/-- Everything that stands for an element behind a step. -/
def placedAfter (c : Step × Value) : List (List Step × Value) :=
  c.2.placed.map fun p => (c.1 :: p.1, p.2)

theorem placedWithin_eq {v : Value} {room : Nat} (enough : v.depth ≤ room) :
    placedWithin room v = ([], v) :: v.steps.flatMap placedAfter := by
  induction v using stepInduction generalizing room with
  | step v ih =>
      cases room with
      | zero =>
          have none : v.steps = [] := List.eq_nil_iff_forall_not_mem.mpr fun c stepped =>
            Nat.not_lt_zero _ (Nat.lt_of_lt_of_le (depth_lt_of_mem_steps stepped) enough)
          rw [none]
          rfl
      | succ room =>
          rw [placedWithin]
          congr 1
          apply List.flatMap_congr
          intro c stepped
          have fits := Nat.lt_of_lt_of_le (depth_lt_of_mem_steps stepped) enough
          rw [placedAfter, placed, ih c stepped (Nat.le_of_lt_succ fits),
            ih c stepped (Nat.le_refl _)]

/-- The value itself comes first, then everything behind each of its steps. -/
theorem placed_eq (v : Value) : v.placed = ([], v) :: v.steps.flatMap placedAfter :=
  placedWithin_eq (Nat.le_refl v.depth)

/-- The first value that names no kind, with the steps that lead there. -/
def firstUnkinded? (v : Value) : Option (List Step × Value) :=
  v.placed.find? fun p => p.2.kind?.isNone

/-- The first value that names no kind behind a step. -/
def firstUnkindedAfter? (c : Step × Value) : Option (List Step × Value) :=
  c.2.firstUnkinded?.map fun p => (c.1 :: p.1, p.2)

/-- A value that names no kind is the first itself; otherwise the steps are tried in order. -/
theorem firstUnkinded?_eq (v : Value) : v.firstUnkinded? =
    if v.kind?.isNone then some ([], v) else v.steps.findSome? firstUnkindedAfter? := by
  rw [firstUnkinded?, placed_eq, List.find?_cons, List.find?_flatMap]
  have after : (fun c => (placedAfter c).find? fun p => p.2.kind?.isNone) =
      firstUnkindedAfter? := by
    funext c
    rw [placedAfter, List.find?_map]
    rfl
  rw [after]
  cases v.kind? <;> rfl

theorem mem_placed_self (v : Value) : ([], v) ∈ v.placed := by
  rw [placed_eq]
  exact List.mem_cons_self

/-- What holds of all that stand for elements in a value does so behind each of its steps. -/
theorem forall_mem_placed_of_mem_steps {P : Value → Prop} {v : Value}
    (all : ∀ p ∈ v.placed, P p.2) {c : Step × Value} (stepped : c ∈ v.steps) :
    ∀ p ∈ c.2.placed, P p.2 := by
  intro p inside
  apply all (c.1 :: p.1, p.2)
  rw [placed_eq]
  exact List.mem_cons_of_mem _ (List.mem_flatMap.mpr ⟨c, stepped, List.mem_map_of_mem inside⟩)

/-- There is no first value that names no kind exactly if all that stand for elements name one. -/
theorem firstUnkinded?_eq_none_iff {v : Value} :
    v.firstUnkinded? = none ↔ ∀ p ∈ v.placed, ∃ k, p.2.kind? = some k := by
  rw [firstUnkinded?, List.find?_eq_none]
  simp only [Option.isNone_iff_eq_none, ← ne_eq, Option.ne_none_iff_exists']

theorem exists_kind_of_firstUnkinded? {v : Value} (none : v.firstUnkinded? = none) :
    ∃ k, v.kind? = some k :=
  firstUnkinded?_eq_none_iff.mp none _ v.mem_placed_self

end ScreenFlow.Json.Value

namespace ScreenFlow.Design

open ScreenFlow.Codec ScreenFlow.Json

/-! ## The check of kinds -/

/-- The fault of a value that names no kind. -/
def kindFault (v : Value) : KindFault :=
  match v.tag? with
  | some tag => .unknown tag
  | none => .untyped

/-- The kind that a value names, whatever is in its branches. -/
def ownKind (v : Value) : Except KindFault Kind :=
  match v.kind? with
  | some k => .ok k
  | none => .error (kindFault v)

theorem kindOfMembers_eq (ms : List (String × Value)) :
    kindOfMembers ms = ownKind (.object ms) := by
  unfold kindOfMembers ownKind kindFault Value.kind? Value.tag? Value.member Value.members
  cases Entries.get? ms tagKey with
  | none => rfl
  | some tag =>
      cases tag with
      | string tag =>
          cases named : Kind.ofName? tag <;> simp [named]
      | null | bool | number | array | object => rfl

theorem checkBranch_append (vs ws : List Value) :
    checkBranch (vs ++ ws) = (checkBranch vs >>= fun _ => checkBranch ws) := by
  induction vs with
  | nil => rfl
  | cons v vs ih =>
      rw [List.cons_append, checkBranch, checkBranch, ih]
      cases checkKind v <;> rfl

theorem checkIfBranch_eq (v : Value) : checkIfBranch v = checkBranch v.items := by
  cases v <;> rfl

theorem member_cons (m : String × Value) (ms : List (String × Value)) (key : String) :
    (Value.object (m :: ms)).member key =
      if m.1 = key then m.2 else (Value.object ms).member key := by
  unfold Value.member Value.members Entries.get?
  by_cases same : m.1 = key
  · simp [same]
  · simp [same]

theorem checkBranchAt_eq (key : String) (ms : List (String × Value)) :
    checkBranchAt key ms = checkBranch ((Value.object ms).member key).items := by
  induction ms with
  | nil => rfl
  | cons m ms ih =>
      rw [checkBranchAt, ih, checkIfBranch_eq, member_cons]
      split <;> rfl

theorem checkCases_eq (ms : List (String × Value)) :
    checkCases ms = checkBranch (ms.flatMap fun m => m.2.items) := by
  induction ms with
  | nil => rfl
  | cons m ms ih => rw [checkCases, ih, checkIfBranch_eq, List.flatMap_cons, checkBranch_append]

theorem checkIfCases_eq (v : Value) :
    checkIfCases v = checkBranch (v.members.flatMap fun m => m.2.items) := by
  cases v with
  | object ms => exact checkCases_eq ms
  | null | bool | number | string | array => rfl

theorem checkCasesAt_eq (key : String) (ms : List (String × Value)) : checkCasesAt key ms =
    checkBranch (((Value.object ms).member key).members.flatMap fun m => m.2.items) := by
  induction ms with
  | nil => rfl
  | cons m ms ih =>
      rw [checkCasesAt, ih, checkIfCases_eq, member_cons]
      split <;> rfl

/-- The check of a value is that of its own kind, and then of the values that steps lead to. -/
theorem checkKind_eq (v : Value) :
    checkKind v = do
      let k ← ownKind v
      checkBranch (v.steps.map Prod.snd)
      return k := by
  cases v with
  | object ms =>
      rw [checkKind, kindOfMembers_eq, Value.steps, ownKind]
      cases (Value.object ms).kind? with
      | none => rfl
      | some k =>
          cases k with
          | ifBlock =>
              dsimp only
              rw [List.map_append, Value.map_snd_stepsInto, Value.map_snd_stepsInto,
                checkBranch_append, ← checkBranchAt_eq, ← checkBranchAt_eq]
              simp only [bind, Except.bind]
              cases checkBranchAt "then" ms <;> rfl
          | switchBlock =>
              dsimp only
              rw [List.map_flatMap, checkCasesAt_eq]
              simp only [Value.map_snd_stepsInto]
              rfl
          | _ => rfl
  | null | bool | number | string | array => rfl

/-- Values behind steps are checked in order, up to the first that names no kind. -/
theorem checkBranch_map_snd {cs : List (Step × Value)}
    (each : ∀ c ∈ cs, checkKind c.2 = match c.2.firstUnkinded? with
      | some p => .error (kindFault p.2)
      | none => ownKind c.2) :
    checkBranch (cs.map Prod.snd) = match cs.findSome? Value.firstUnkindedAfter? with
      | some p => .error (kindFault p.2)
      | none => .ok () := by
  induction cs with
  | nil => rfl
  | cons c cs ih =>
      obtain ⟨first, others⟩ := List.forall_mem_cons.mp each
      rw [List.map_cons, checkBranch, first, ih others, List.findSome?_cons,
        Value.firstUnkindedAfter?]
      cases found : c.2.firstUnkinded? with
      | some p => rfl
      | none =>
          obtain ⟨k, named⟩ := Value.exists_kind_of_firstUnkinded? found
          rw [ownKind, named]
          rfl

/-- The check passes if every value that stands for an element names a kind; otherwise it reports
the first that does not, in the order of the walk. -/
theorem checkKind_eq_firstUnkinded (v : Value) : checkKind v =
    match v.firstUnkinded? with
    | some p => .error (kindFault p.2)
    | none => ownKind v := by
  induction v using Value.stepInduction with
  | step v ih =>
      rw [checkKind_eq, checkBranch_map_snd ih, Value.firstUnkinded?_eq, ownKind]
      cases v.kind? with
      | none => rfl
      | some k =>
          simp only [Option.isNone_some, Bool.false_eq_true, if_false]
          cases v.steps.findSome? Value.firstUnkindedAfter? <;> rfl

theorem checkKind_of_unknown {v w : Value} {path : List Step} {tag : String}
    (first : v.firstUnkinded? = some (path, w)) (tagged : w.tag? = some tag) :
    checkKind v = .error (.unknown tag) := by
  simp only [checkKind_eq_firstUnkinded, first, kindFault, tagged]

theorem checkKind_of_untyped {v w : Value} {path : List Step}
    (first : v.firstUnkinded? = some (path, w)) (tagged : w.tag? = none) :
    checkKind v = .error .untyped := by
  simp only [checkKind_eq_firstUnkinded, first, kindFault, tagged]

theorem checkKind_of_kinded {v : Value} {k : Kind} (kinded : v.firstUnkinded? = none)
    (named : v.kind? = some k) : checkKind v = .ok k := by
  simp only [checkKind_eq_firstUnkinded, kinded, ownKind, named]

theorem firstUnkinded?_of_checkKind {v : Value} {k : Kind} (passed : checkKind v = .ok k) :
    v.firstUnkinded? = none := by
  rw [checkKind_eq_firstUnkinded] at passed
  cases first : v.firstUnkinded? with
  | none => rfl
  | some p =>
      rw [first] at passed
      cases passed

end ScreenFlow.Design
