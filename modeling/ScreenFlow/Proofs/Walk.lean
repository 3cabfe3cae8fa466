import Mathlib.Data.List.Basic
import ScreenFlow.Compile.Document

/-!
# Walks through elements and nodes

The recursions into branches are list operations on the branches, one induction principle serves
every statement about all elements or all nodes, and mapping commutes with walking: the nodes inside
the node of an element are the nodes of the elements inside it, in the same order.
-/

namespace ScreenFlow.Design.Element

/-- To prove something of every element, prove it of widgets, and of control elements from the
elements in their branches. -/
theorem branchInduction {motive : Element → Prop} (widget : ∀ w, motive (.widget w))
    (ifBlock : ∀ condition thenBranch elseBranch, (∀ e ∈ thenBranch, motive e) →
      (∀ e ∈ elseBranch, motive e) → motive (.ifBlock condition thenBranch elseBranch))
    (switchBlock : ∀ value (cases : List (String × List Element)),
      (∀ branch ∈ cases, ∀ e ∈ branch.2, motive e) → motive (.switchBlock value cases))
    (e : Element) : motive e :=
  @Element.rec motive (fun es => ∀ e ∈ es, motive e)
    (fun cases => ∀ branch ∈ cases, ∀ e ∈ branch.2, motive e)
    (fun branch => ∀ e ∈ branch.2, motive e)
    widget ifBlock switchBlock
    (List.forall_mem_nil _)
    (fun _ _ head tail => List.forall_mem_cons.mpr ⟨head, tail⟩)
    (List.forall_mem_nil _)
    (fun _ _ head tail => List.forall_mem_cons.mpr ⟨head, tail⟩)
    (fun _ _ branch => branch) e

/-! ## Branches as lists -/

theorem walkBranch_eq (es : List Element) : walkBranch es = es.flatMap walk := by
  induction es with
  | nil => rfl
  | cons e es ih => rw [walkBranch, ih, List.flatMap_cons]

theorem walkCases_eq (cs : List (String × List Element)) :
    walkCases cs = cs.flatMap fun c => c.2.flatMap walk := by
  induction cs with
  | nil => rfl
  | cons c cs ih => rw [walkCases, ih, walkBranch_eq, List.flatMap_cons]

theorem anyFormClass_eq (es : List Element) : anyFormClass es = es.any isFormClass := by
  induction es with
  | nil => rfl
  | cons e es ih => rw [anyFormClass, ih, List.any_cons]

theorem anyFormClassCase_eq (cs : List (String × List Element)) :
    anyFormClassCase cs = cs.any fun c => c.2.any isFormClass := by
  induction cs with
  | nil => rfl
  | cons c cs ih => rw [anyFormClassCase, ih, anyFormClass_eq, List.any_cons]

theorem mem_walk_self (e : Element) : e ∈ e.walk := by
  cases e <;> simp [walk]

end ScreenFlow.Design.Element

namespace ScreenFlow.Flow.Node

/-- To prove something of every node, prove it of parts, and of nodes with children from those. -/
theorem childInduction {motive : Node → Prop} (part : ∀ p, motive (.part p))
    (ifBlock : ∀ condition thenBranch elseBranch, (∀ n ∈ thenBranch, motive n) →
      (∀ ns, elseBranch = some ns → ∀ n ∈ ns, motive n) →
        motive (.ifBlock condition thenBranch elseBranch))
    (switchBlock : ∀ value (cases : List (String × List Node)),
      (∀ branch ∈ cases, ∀ n ∈ branch.2, motive n) → motive (.switchBlock value cases))
    (form : ∀ name children, (∀ n ∈ children, motive n) → motive (.form name children))
    (n : Node) : motive n :=
  @Node.rec motive (fun ns => ∀ n ∈ ns, motive n)
    (fun branch => ∀ ns, branch = some ns → ∀ n ∈ ns, motive n)
    (fun cases => ∀ branch ∈ cases, ∀ n ∈ branch.2, motive n)
    (fun branch => ∀ n ∈ branch.2, motive n)
    part ifBlock switchBlock form
    (List.forall_mem_nil _)
    (fun _ _ head tail => List.forall_mem_cons.mpr ⟨head, tail⟩)
    (fun _ absent => nomatch absent)
    (fun _ branch _ present => Option.some.inj present ▸ branch)
    (List.forall_mem_nil _)
    (fun _ _ head tail => List.forall_mem_cons.mpr ⟨head, tail⟩)
    (fun _ _ branch => branch) n

theorem walkList_eq (ns : List Node) : walkList ns = ns.flatMap walk := by
  induction ns with
  | nil => rfl
  | cons n ns ih => rw [walkList, ih, List.flatMap_cons]

theorem walkCases_eq (cs : List (String × List Node)) :
    walkCases cs = cs.flatMap fun c => c.2.flatMap walk := by
  induction cs with
  | nil => rfl
  | cons c cs ih => rw [walkCases, ih, walkList_eq, List.flatMap_cons]

/-- An absent second branch holds nothing. -/
theorem walk_ifBlock (condition : String) (thenBranch : List Node)
    (elseBranch : Option (List Node)) :
    (ifBlock condition thenBranch elseBranch).walk =
      ifBlock condition thenBranch elseBranch ::
        (thenBranch.flatMap walk ++ (elseBranch.getD []).flatMap walk) := by
  cases elseBranch <;> simp [walk, walkList_eq]

theorem mem_walk_self (n : Node) : n ∈ n.walk := by
  cases n with
  | ifBlock _ _ elseBranch => cases elseBranch <;> simp [walk]
  | _ => simp [walk]

end ScreenFlow.Flow.Node

namespace ScreenFlow.Compile

open ScreenFlow.Design (Element)

/-! ## Mapping -/

theorem mapBranch_eq (ctx : Context) (es : List Element) :
    mapBranch ctx es = es.map (mapElement ctx) := by
  induction es with
  | nil => rfl
  | cons e es ih => rw [mapBranch, ih, List.map_cons]

theorem mapCases_eq (ctx : Context) (cs : List (String × List Element)) :
    mapCases ctx cs = cs.map fun c => (c.1, c.2.map (mapElement ctx)) := by
  induction cs with
  | nil => rfl
  | cons c cs ih => rw [mapCases, ih, mapBranch_eq, List.map_cons]

/-- The second branch of a node: absent when the element's is empty. -/
def mapElse (ctx : Context) (es : List Element) : Option (List Flow.Node) :=
  if es.isEmpty then none else some (es.map (mapElement ctx))

theorem getD_mapElse (ctx : Context) (es : List Element) :
    (mapElse ctx es).getD [] = es.map (mapElement ctx) := by
  cases es <;> rfl

theorem mapElement_ifBlock (ctx : Context) (condition : String)
    (thenBranch elseBranch : List Element) :
    mapElement ctx (.ifBlock condition thenBranch elseBranch) =
      .ifBlock condition (thenBranch.map (mapElement ctx)) (mapElse ctx elseBranch) := by
  rw [mapElement, mapBranch_eq, mapBranch_eq, mapElse]

theorem mapElement_switchBlock (ctx : Context) (value : String)
    (cases : List (String × List Element)) :
    mapElement ctx (.switchBlock value cases) =
      .switchBlock value (cases.map fun c => (c.1, c.2.map (mapElement ctx))) := by
  rw [mapElement, mapCases_eq]

/-- Walking the nodes of elements whose walks commute with mapping. -/
private theorem flatMap_walk_map (ctx : Context) (es : List Element)
    (commutes : ∀ e ∈ es, (mapElement ctx e).walk = e.walk.map (mapElement ctx)) :
    (es.map (mapElement ctx)).flatMap Flow.Node.walk =
      (es.flatMap Element.walk).map (mapElement ctx) := by
  rw [List.flatMap_map, List.map_flatMap]
  exact List.flatMap_congr commutes

/-- The nodes inside the node of an element are the nodes of the elements inside it. -/
theorem walk_mapElement (ctx : Context) (e : Element) :
    (mapElement ctx e).walk = e.walk.map (mapElement ctx) := by
  -- The node of an If has no second branch where the element has an empty one; to walk them is the
  -- same.
  induction e using Element.branchInduction with
  | widget w => rfl
  | ifBlock condition thenBranch elseBranch ihThen ihElse =>
      have hthen := flatMap_walk_map ctx thenBranch ihThen
      have helse := flatMap_walk_map ctx elseBranch ihElse
      rw [mapElement_ifBlock, Flow.Node.walk_ifBlock, getD_mapElse, hthen, helse, Element.walk,
        Element.walkBranch_eq, Element.walkBranch_eq, List.cons_append, List.map_cons,
        List.map_append, mapElement_ifBlock]
  | switchBlock value cases ih =>
      rw [mapElement_switchBlock, Flow.Node.walk, Flow.Node.walkCases_eq, Element.walk,
        Element.walkCases_eq, List.map_cons, List.flatMap_map, List.map_flatMap,
        mapElement_switchBlock]
      congr 1
      exact List.flatMap_congr fun branch member => flatMap_walk_map ctx branch.2 (ih branch member)

theorem walkList_map_mapElement (ctx : Context) (es : List Element) :
    Flow.Node.walkList (es.map (mapElement ctx)) =
      (es.flatMap Element.walk).map (mapElement ctx) := by
  rw [Flow.Node.walkList_eq]
  exact flatMap_walk_map ctx es fun e _ => walk_mapElement ctx e

end ScreenFlow.Compile
