import ScreenFlow.Compile.Run
import ScreenFlow.Proofs.Actions
import ScreenFlow.Proofs.FooterPayload
import ScreenFlow.Proofs.Review.Filing

/-!
# Where a document leads

Every navigating action of a design becomes a place to go in the document. A review looks up the
targets of footers and navigation lists only, so in a document without errors those lead to screens
of it, and the others do exactly when their targets happen to be screens.
-/

namespace ScreenFlow.Flow

/-- Where the actions of a node itself lead. -/
def Node.next (n : Node) : List NextScreen := n.actions.filterMap Action.next

/-- Whether a node is one whose targets make up the routing model. -/
def Node.isRouted (n : Node) : Bool := n.nodeType == .footer || n.nodeType == .navigationList

namespace Document

/-- Everything inside the layouts of a document, at every depth. -/
def nodes (d : Document) : List Node := d.screens.flatMap fun s => Node.walkList s.layout.children

/-- A place to go is a screen of the document. -/
def Has (d : Document) (next : NextScreen) : Prop := ∃ s ∈ d.screens, next = .screen s.id

theorem has_screen_iff (d : Document) (id : String) :
    d.Has (.screen id) ↔ id ∈ d.screens.map Screen.id := by
  rw [List.mem_map]
  apply exists_congr
  intro s
  apply and_congr_right
  intro _
  rw [NextScreen.screen, NextScreen.screen, NextScreen.mk.injEq, eq_comm (a := s.id)]
  exact and_iff_right rfl

end Document

end ScreenFlow.Flow

namespace ScreenFlow.Compile

open ScreenFlow.Design (Element Screen)
open ScreenFlow.Flow (Node NextScreen)

/-! ## Places to go of mapped nodes -/

theorem next_mapFooterAction (ctx : Context) (action : Design.Action) :
    (mapFooterAction ctx action).next = action.target?.map NextScreen.screen := by
  rw [mapFooterAction]
  cases action.name <;> rfl

theorem next_mapActionOf (ctx : Context) (e : Element) (action : Design.Action) :
    (mapActionOf ctx e action).next = action.target?.map NextScreen.screen := by
  rw [mapActionOf]
  split
  · exact next_mapFooterAction ctx action
  · rfl

/-- The node of an element leads where the element names a screen. -/
theorem next_mapElement (ctx : Context) (e : Element) :
    (mapElement ctx e).next = e.targets.map NextScreen.screen := by
  rw [Node.next, actions_mapElement, Element.targets_eq_filterMap, List.filterMap_map,
    List.map_filterMap]
  exact List.filterMap_congr fun action _ => next_mapActionOf ctx e action

theorem isRouted_mapElement (ctx : Context) (e : Element) :
    (mapElement ctx e).isRouted = e.isRouted := by
  rw [Node.isRouted, nodeType_mapElement, Element.isRouted]
  cases e.kind <;> rfl

/-! ## All nodes of a document -/

/-- What holds of forms and of the nodes of all elements holds of all nodes of a screen. -/
theorem forall_walkList_compileScreen {P : Node → Prop}
    (form : ∀ name children, P (.form name children)) (previous : List Screen) (s : Screen) :
    (∀ n ∈ Node.walkList (compileScreen previous s).layout.children, P n) ↔
      ∀ e ∈ s.walk, P (mapElement (Context.ofScreen previous s) e) := by
  -- Grouping moves elements past each other but loses none, and only the form is added.
  have sameElements : ∀ e, e ∈ s.walk ↔
      e ∈ s.outsideForm.flatMap Element.walk ∨ e ∈ s.insideForm.flatMap Element.walk := by
    intro e
    rw [← List.mem_append, ← List.flatMap_append, Screen.walk]
    exact ((outsideForm_append_insideForm_perm s).flatMap_right _).mem_iff.symm
  have formNodes : (∀ n ∈ Node.walkList (if s.elements.any Element.isFormClass then
      [formNode (Context.ofScreen previous s) s] else []), P n) ↔
        ∀ e ∈ s.insideForm.flatMap Element.walk,
          P (mapElement (Context.ofScreen previous s) e) := by
    cases any : s.elements.any Element.isFormClass with
    | true =>
        rw [if_pos rfl, Node.walkList, Node.walkList, List.append_nil, formNode, Node.walk,
          walkList_map_mapElement, List.forall_mem_cons, List.forall_mem_map]
        exact and_iff_right (form _ _)
    | false => rw [insideForm_eq_nil any]; simp [Node.walkList]
  rw [children_compileScreen, Node.walkList_eq, List.flatMap_append, ← Node.walkList_eq,
    ← Node.walkList_eq, walkList_map_mapElement, List.forall_mem_append, List.forall_mem_map,
    formNodes]
  simp only [sameElements, or_imp, forall_and]

/-- What holds of no form holds of some node of a screen exactly when it does of that of some
element. -/
theorem exists_walkList_compileScreen {P : Node → Prop}
    (form : ∀ name children, ¬P (.form name children)) (previous : List Screen) (s : Screen) :
    (∃ n ∈ Node.walkList (compileScreen previous s).layout.children, P n) ↔
      ∃ e ∈ s.walk, P (mapElement (Context.ofScreen previous s) e) := by
  have none := forall_walkList_compileScreen (P := fun n => ¬P n) form previous s
  rw [← not_iff_not]
  push Not
  exact none

/-- What holds of forms, and of a node exactly when it holds of its element, holds of all nodes of
compiled screens exactly when it holds of all elements. -/
theorem forall_nodes_compileScreens {P : Node → Prop} {Q : Element → Prop}
    (form : ∀ name children, P (.form name children))
    (mapped : ∀ ctx e, P (mapElement ctx e) ↔ Q e) (previous screens : List Screen) :
    (∀ s ∈ compileScreens previous screens, ∀ n ∈ Node.walkList s.layout.children, P n) ↔
      ∀ s ∈ screens, ∀ e ∈ s.walk, Q e := by
  induction screens generalizing previous with
  | nil => exact iff_of_true (by simp [compileScreens]) (by simp)
  | cons s ss ih =>
      rw [compileScreens, List.forall_mem_cons, List.forall_mem_cons, ih,
        forall_walkList_compileScreen form]
      simp only [mapped]

theorem map_id_compileScreens (previous screens : List Screen) :
    (compileScreens previous screens).map Flow.Screen.id = screens.map Screen.id := by
  induction screens generalizing previous with
  | nil => rfl
  | cons s ss ih => rw [compileScreens, List.map_cons, List.map_cons, ih]; rfl

end ScreenFlow.Compile

namespace ScreenFlow.Review

open ScreenFlow.Design (Element Screen)

/-! ## What a review without errors says -/

/-- All findings on missing targets are errors, so none is one exactly when no target is missing. -/
theorem filter_isError_missingTargets (ids : List String) (s : Screen) :
    (missingTargets ids s).filter Finding.isError = [] ↔
      ∀ target ∈ s.navigationTargets, target ∈ ids := by
  rw [List.filter_eq_nil_iff, missingTargets, List.forall_mem_map]
  constructor
  · intro none target named
    by_contra missing
    exact none target (List.mem_filter.mpr ⟨named, decide_eq_true missing⟩) rfl
  · intro known target missing
    obtain ⟨named, unknown⟩ := List.mem_filter.mp missing
    exact absurd (known target named) (of_decide_eq_true unknown)

theorem filter_isError_repeatedIds (screens : List Screen) :
    (repeatedIds screens).filter Finding.isError = [] ↔ (screens.map Screen.id).Nodup := by
  rw [List.filter_eq_nil_iff, repeatedIds, List.forall_mem_map, ← repeats_eq_nil_iff,
    List.eq_nil_iff_forall_not_mem]
  -- Every repeat is an error, so there are no errors only without repeats.
  exact forall₂_congr fun s again => iff_of_false (not_not_intro rfl) id

/-- A document without errors has distinct ids, and its navigation targets are screens. -/
theorem references_of_isValid {limits : Limits} {screens : List Screen}
    (clean : (documentReport limits screens).isValid = true) :
    (screens.map Screen.id).Nodup ∧
      ∀ s ∈ screens, ∀ target ∈ s.navigationTargets, target ∈ screens.map Screen.id := by
  rw [Report.isValid, List.isEmpty_iff, documentReport, Report.errors_pushAll,
    List.append_eq_nil_iff, documentFindings, List.filter_append, List.filter_append,
    List.append_eq_nil_iff, List.append_eq_nil_iff, filter_isError_repeatedIds,
    List.filter_flatMap, List.flatMap_eq_nil_iff] at clean
  obtain ⟨-, ⟨-, distinct⟩, targets⟩ := clean
  exact ⟨distinct, fun s member => (filter_isError_missingTargets _ s).mp (targets s member)⟩

end ScreenFlow.Review

namespace ScreenFlow.Compile

open ScreenFlow.Design (Element Screen)
open ScreenFlow.Flow (Node NextScreen)
open ScreenFlow.Review (Limits documentReport)

/-! ## Main statement -/

/--
Screens that a review finds no errors in compile. Footers and navigation lists of the document, at
every depth and with their items, lead to screens of it; all nodes do exactly when the targets of
all other elements are ids of screens, which the review leaves open.
-/
theorem compileFlow_of_isValid (limits : Limits) (screens : List Screen)
    (clean : (documentReport limits screens).isValid = true) :
    ∃ d, compileFlow screens = .ok d ∧ d.screens.map Flow.Screen.id = screens.map Screen.id ∧
      (∀ n ∈ d.nodes, n.isRouted = true → ∀ next ∈ n.next, d.Has next) ∧
      ((∀ n ∈ d.nodes, ∀ next ∈ n.next, d.Has next) ↔
        ∀ s ∈ screens, ∀ e ∈ s.walk, e.isRouted = false →
          ∀ target ∈ e.targets, target ∈ screens.map Screen.id) := by
  obtain ⟨distinct, known⟩ := Review.references_of_isValid clean
  refine ⟨_, compileFlow_of_nodup distinct, map_id_compileScreens [] screens, ?_⟩
  -- What follows looks at the screens of the document only.
  generalize routed : (⟨Flow.version, routingModel screens, compileScreens [] screens⟩ :
    Flow.Document) = d
  have screensOf : d.screens = compileScreens [] screens := routed ▸ rfl
  have leads (ctx : Context) (e : Element) : (∀ next ∈ (mapElement ctx e).next, d.Has next) ↔
      ∀ target ∈ e.targets, target ∈ screens.map Screen.id := by
    rw [next_mapElement, List.forall_mem_map]
    simp only [Flow.Document.has_screen_iff, screensOf, map_id_compileScreens]
  have nodes {P : Node → Prop} : (∀ n ∈ d.nodes, P n) ↔
      ∀ s ∈ compileScreens [] screens, ∀ n ∈ Node.walkList s.layout.children, P n := by
    rw [Flow.Document.nodes, List.forall_mem_flatMap, screensOf]
  -- This is all that the review says: its targets are those of routed elements.
  have routedKnown : ∀ s ∈ screens, ∀ e ∈ s.walk, e.isRouted = true →
      ∀ target ∈ e.targets, target ∈ screens.map Screen.id := by
    intro s member e inside isRouted target named
    exact known s member target (Design.mem_navigationTargets.mpr ⟨e, inside, isRouted, named⟩)
  constructor
  · rw [nodes, forall_nodes_compileScreens
      (Q := fun e => e.isRouted = true → ∀ target ∈ e.targets, target ∈ screens.map Screen.id)]
    · exact routedKnown
    · intro name children isRouted
      cases isRouted
    · intro ctx e
      rw [isRouted_mapElement, leads]
  · rw [nodes, forall_nodes_compileScreens
      (Q := fun e => ∀ target ∈ e.targets, target ∈ screens.map Screen.id)]
    · apply forall₂_congr
      intro s member
      apply forall₂_congr
      intro e inside
      constructor
      · intro all _
        exact all
      · intro others
        cases isRouted : e.isRouted with
        | true => exact routedKnown s member e inside isRouted
        | false => exact others isRouted
    · intro name children next impossible
      cases impossible
    · exact leads

/-- One screen with a link to a screen that is not there. -/
def strayLink : List Screen := [
  ⟨"START", "Start", [.widget (.embeddedLink
    ⟨"More", some ⟨.navigate, some "NOWHERE", none, none⟩, none⟩)]⟩]

/-- A review finds nothing wrong with the link, and yet the document leads out of itself. -/
theorem strayLink_leads_out :
    (documentReport .default strayLink).isValid = true ∧
      ∃ d, compileFlow strayLink = .ok d ∧ ¬∀ n ∈ d.nodes, ∀ next ∈ n.next, d.Has next := by
  have clean : (documentReport .default strayLink).isValid = true := by decide +kernel
  obtain ⟨d, compiled, -, -, exactly⟩ := compileFlow_of_isValid .default strayLink clean
  refine ⟨clean, d, compiled, ?_⟩
  rw [exactly]
  decide +kernel

end ScreenFlow.Compile
