import ScreenFlow.Proofs.Walk

/-!
# Places inside an element

Everything inside an element is reached by steps, each to a position in a branch. The elements are
listed with their steps in the order in which they are walked, and each list of steps leads to the
element that stands beside it.
-/

namespace ScreenFlow.Design

/-- A branch of a control element. -/
inductive Branch where
  | thenBranch
  | elseBranch
  | caseBranch (name : String)
  deriving DecidableEq, Repr

/-- One step from an element into one of its branches, to a position counted from one. -/
structure Step where
  branch : Branch
  position : Nat
  deriving DecidableEq, Repr

namespace Element

/-! ## One step -/

/-- The steps to the elements of a branch. -/
def stepsInto (branch : Branch) (es : List Element) : List (Step × Element) :=
  (es.zipIdx 1).map fun c => (⟨branch, c.2⟩, c.1)

/-- The steps from an element, each with the element that it leads to. -/
def steps : Element → List (Step × Element)
  | .widget _ => []
  | .ifBlock _ thenBranch elseBranch =>
    stepsInto .thenBranch thenBranch ++ stepsInto .elseBranch elseBranch
  | .switchBlock _ cases => cases.flatMap fun c => stepsInto (.caseBranch c.1) c.2

theorem map_snd_stepsInto (branch : Branch) (es : List Element) :
    (stepsInto branch es).map Prod.snd = es := by
  rw [stepsInto, List.map_map]
  exact List.zipIdx_map_fst 1 es

/-- Steps lead to the elements in the branches, in order. -/
theorem map_snd_steps (e : Element) : e.steps.map Prod.snd = e.branches := by
  cases e with
  | widget w => rfl
  | ifBlock condition thenBranch elseBranch =>
      rw [steps, List.map_append, map_snd_stepsInto, map_snd_stepsInto]
      rfl
  | switchBlock value cases =>
      rw [steps, List.map_flatMap]
      simp only [map_snd_stepsInto]
      rfl

/-- To prove something of every element, prove it of each from those that one step leads to. -/
theorem stepInduction {motive : Element → Prop}
    (step : ∀ e : Element, (∀ c ∈ e.steps, motive c.2) → motive e) (e : Element) : motive e := by
  have ofBranches (e : Element) (inside : ∀ child ∈ e.branches, motive child) : motive e := by
    rw [← map_snd_steps, List.forall_mem_map] at inside
    exact step e inside
  induction e using branchInduction with
  | widget w => exact ofBranches _ (List.forall_mem_nil _)
  | ifBlock condition thenBranch elseBranch ihThen ihElse =>
      exact ofBranches _ (List.forall_mem_append.mpr ⟨ihThen, ihElse⟩)
  | switchBlock value cases ih => exact ofBranches _ (List.forall_mem_flatMap.mpr ih)

/-! ## All steps -/

mutual

/-- An element and everything inside its branches, each element before its branches, with the steps
that lead there, the outermost first. -/
def placed : Element → List (List Step × Element)
  | .widget w => [([], .widget w)]
  | .ifBlock condition thenBranch elseBranch =>
    ([], .ifBlock condition thenBranch elseBranch) ::
      (placedBranch .thenBranch 1 thenBranch ++ placedBranch .elseBranch 1 elseBranch)
  | .switchBlock value cases => ([], .switchBlock value cases) :: placedCases cases
termination_by structural e => e

/-- Everything inside the elements of a branch from a position on. -/
def placedBranch (branch : Branch) (position : Nat) : List Element → List (List Step × Element)
  | [] => []
  | e :: es =>
    (placed e).map (fun p => (⟨branch, position⟩ :: p.1, p.2)) ++
      placedBranch branch (position + 1) es
termination_by structural es => es

/-- Everything inside the elements of cases. -/
def placedCases : List (String × List Element) → List (List Step × Element)
  | [] => []
  | (name, es) :: cs => placedBranch (.caseBranch name) 1 es ++ placedCases cs
termination_by structural cs => cs

end

/-- Everything inside an element that a step leads to. -/
def placedAfter (c : Step × Element) : List (List Step × Element) :=
  c.2.placed.map fun p => (c.1 :: p.1, p.2)

theorem placedBranch_eq (branch : Branch) (position : Nat) (es : List Element) :
    placedBranch branch position es =
      ((es.zipIdx position).map fun c => (⟨branch, c.2⟩, c.1)).flatMap placedAfter := by
  induction es generalizing position with
  | nil => rfl
  | cons e es ih =>
      rw [placedBranch, ih, List.zipIdx_cons, List.map_cons, List.flatMap_cons]
      rfl

theorem placedCases_eq (cs : List (String × List Element)) :
    placedCases cs =
      (cs.flatMap fun c => stepsInto (.caseBranch c.1) c.2).flatMap placedAfter := by
  induction cs with
  | nil => rfl
  | cons c cs ih =>
      rw [placedCases, ih, placedBranch_eq, List.flatMap_cons, List.flatMap_append]
      rfl

/-- The element itself comes first, then everything behind each of its steps. -/
theorem placed_eq (e : Element) : e.placed = ([], e) :: e.steps.flatMap placedAfter := by
  cases e with
  | widget w => rfl
  | ifBlock condition thenBranch elseBranch =>
      rw [placed, placedBranch_eq, placedBranch_eq, ← List.flatMap_append]
      rfl
  | switchBlock value cases =>
      rw [placed, placedCases_eq]
      rfl

theorem walk_eq (e : Element) : e.walk = e :: e.branches.flatMap walk := by
  cases e with
  | widget w => rfl
  | ifBlock condition thenBranch elseBranch =>
      rw [walk, walkBranch_eq, walkBranch_eq, List.cons_append, ← List.flatMap_append]
      rfl
  | switchBlock value cases =>
      rw [walk, walkCases_eq, ← List.flatMap_assoc]
      rfl

/-- The elements at all places are those of the walk, in its order. -/
theorem map_snd_placed (e : Element) : e.placed.map Prod.snd = e.walk := by
  induction e using stepInduction with
  | step e ih =>
      rw [placed_eq, walk_eq, List.map_cons, List.map_flatMap, ← map_snd_steps, List.flatMap_map]
      congr 1
      apply List.flatMap_congr
      intro c member
      rw [placedAfter, List.map_map, ← ih c member]
      rfl

/-- Steps lead from an element to one inside it. -/
inductive Leads : Element → List Step → Element → Prop where
  | here (e : Element) : Leads e [] e
  | into {e child inner : Element} {step : Step} {path : List Step} :
      (step, child) ∈ e.steps → Leads child path inner → Leads e (step :: path) inner

/-- The places are exactly those that steps lead to. -/
theorem mem_placed_iff {e inner : Element} {path : List Step} :
    (path, inner) ∈ e.placed ↔ Leads e path inner := by
  constructor
  · intro member
    induction e using stepInduction generalizing path inner with
    | step e ih =>
        rw [placed_eq, List.mem_cons, List.mem_flatMap] at member
        rcases member with itself | ⟨⟨step, child⟩, stepped, behind⟩
        · cases itself
          exact .here e
        · obtain ⟨⟨rest, last⟩, there, same⟩ := List.mem_map.mp behind
          cases same
          exact .into stepped (ih (step, child) stepped there)
  · intro leads
    induction leads with
    | here e =>
        rw [placed_eq]
        exact List.mem_cons_self
    | @into e child inner step path stepped _ ih =>
        rw [placed_eq]
        apply List.mem_cons_of_mem
        exact List.mem_flatMap.mpr ⟨(step, child), stepped, List.mem_map.mpr ⟨_, ih, rfl⟩⟩

end Element

end ScreenFlow.Design
