import ScreenFlow.Proofs.Firsts
import ScreenFlow.Proofs.Walk

/-!
# Targets of designs

An action leads to the screen that it names, if it navigates and the name is not empty. Elements
have actions in different places, and those of footers and navigation lists are the ones that a
screen is said to lead to: each target once, in the order of the walk.
-/

namespace ScreenFlow.Design

/-! ## Actions -/

/-- Where an action leads: to the screen that it names when it navigates, unless the name is
empty. -/
def Action.leadsTo (a : Action) : List String :=
  a.next.toList.filter fun id => a.name = .navigate ∧ id ≠ ""

theorem Action.toList_target? (a : Action) : a.target?.toList = a.leadsTo := by
  obtain ⟨name, next, url, payload⟩ := a
  cases next with
  | none => cases name <;> rfl
  | some id => by_cases blank : id = "" <;> cases name <;> simp [target?, leadsTo, blank]

/-- The actions of a widget, those of its items first. -/
def Widget.actions : Widget → List Action
  | .selector _ attrs => attrs.onSelectAction.toList
  | .optIn attrs => attrs.onClickAction.toList
  | .embeddedLink attrs => attrs.onClickAction.toList
  | .datePicker attrs => attrs.onSelectAction.toList
  | .calendarPicker attrs => attrs.onSelectAction.toList
  | .navigationList attrs =>
    attrs.items.filterMap NavigationItem.onClickAction ++ attrs.onClickAction.toList
  | .footer attrs => attrs.onClickAction.toList
  | .heading _ _ | .body _ _ | .richText _ | .textInput _ _ | .textArea _ | .image _
  | .imageCarousel _ | .photoPicker _ | .documentPicker _ => []

namespace Element

/-- The actions of an element, without its branches. -/
def actions : Element → List Action
  | .widget w => w.actions
  | _ => []

/-! ## Elements -/

/-- The ids of the screens that the actions of an element lead to. -/
def targets (e : Element) : List String := e.actions.flatMap Action.leadsTo

/-- Whether an element is one whose targets make up the routing model. -/
def isRouted (e : Element) : Bool := e.kind == .footer || e.kind == .navigationList

theorem targets_eq_filterMap (e : Element) : e.targets = e.actions.filterMap Action.target? := by
  rw [targets, List.filterMap_eq_flatMap_toList]
  exact List.flatMap_congr fun a _ => a.toList_target?.symm

/-- Only the targets of footers and navigation lists are navigation targets of their element. -/
theorem navigationTargets_eq (e : Element) :
    e.navigationTargets = if e.isRouted then e.targets else [] := by
  rw [targets_eq_filterMap]
  cases e with
  | widget w =>
      cases w with
      | heading level => cases level <;> rfl
      | body style => cases style <;> rfl
      | textInput purpose => cases purpose <;> rfl
      | selector style => cases style <;> rfl
      | footer attrs =>
          -- A footer has one action at most, and that has one target at most.
          show (attrs.onClickAction.bind Action.target?).toList =
            attrs.onClickAction.toList.filterMap Action.target?
          cases attrs.onClickAction with
          | none => rfl
          | some action => cases h : action.target? <;> simp [h]
      | _ => rfl
  | ifBlock => rfl
  | switchBlock => rfl

end Element

/-! ## Screens -/

/-- What a screen can lead to, in the order of its elements and their items. -/
theorem navigationTargets_eq_firsts (s : Screen) :
    s.navigationTargets =
      firsts id ((s.walk.filter Element.isRouted).flatMap Element.targets) := by
  show firsts id (s.walk.flatMap Element.navigationTargets) = _
  congr 1
  induction s.walk with
  | nil => rfl
  | cons e es ih =>
      rw [List.flatMap_cons, ih, Element.navigationTargets_eq, List.filter_cons]
      cases e.isRouted <;> simp

theorem mem_navigationTargets {s : Screen} {target : String} :
    target ∈ s.navigationTargets ↔ ∃ e ∈ s.walk, e.isRouted = true ∧ target ∈ e.targets := by
  rw [navigationTargets_eq_firsts, ← List.map_id (firsts id _), mem_map_firsts, List.map_id,
    List.mem_flatMap]
  simp only [List.mem_filter, and_assoc]

/-- Each target of a screen is listed once. -/
theorem nodup_navigationTargets (s : Screen) : s.navigationTargets.Nodup := by
  rw [navigationTargets_eq_firsts, ← List.map_id (firsts id _)]
  exact nodup_map_firsts id _

end ScreenFlow.Design
