import ScreenFlow.Proofs.Navigation

/-!
# Routing models

The routing model is read off the elements of a design, and the places to go are written by the
mapper into regrouped nodes. Both say the same of every screen: what the model lists for it is where
its compiled footers, navigation lists and list items lead.
-/

namespace ScreenFlow.Flow

/-- The names of the places where footers and navigation lists of a screen lead, at every depth and
with their items. -/
def Screen.routes (w : Screen) : List String :=
  ((Node.walkList w.layout.children).filter Node.isRouted).flatMap fun n =>
    n.next.map NextScreen.name

theorem Screen.mem_routes {w : Screen} {target : String} :
    target ∈ w.routes ↔
      ∃ n ∈ Node.walkList w.layout.children,
        n.isRouted = true ∧ ∃ next ∈ n.next, next.name = target := by
  simp [routes, List.mem_flatMap, List.mem_filter, and_assoc]

end ScreenFlow.Flow

namespace ScreenFlow.Compile

open ScreenFlow.Design (Element Screen)

/-! ## The screens of one screen -/

/-- The compiled screen leads to the same screens, whichever screens come before it. -/
theorem mem_routes_compileScreen (previous : List Screen) (s : Screen) (target : String) :
    target ∈ (compileScreen previous s).routes ↔ target ∈ s.navigationTargets := by
  have named (e : Element) :
      (∃ next ∈ (mapElement (Context.ofScreen previous s) e).next, next.name = target) ↔
        target ∈ e.targets := by
    rw [next_mapElement]
    simp [Flow.NextScreen.screen]
  have formLeadsNowhere : ∀ name children, ¬((Flow.Node.form name children).isRouted = true ∧
      ∃ next ∈ (Flow.Node.form name children).next, next.name = target) := by
    rintro name children ⟨isRouted, -⟩
    cases isRouted
  rw [Flow.Screen.mem_routes, exists_walkList_compileScreen formLeadsNowhere,
    Design.mem_navigationTargets]
  simp only [isRouted_mapElement, named]

/-! ## The model of several screens -/

/-- Only screens that have company get a model. -/
theorem routingModel_eq_none_iff (screens : List Screen) :
    routingModel screens = none ↔ screens.length ≤ 1 := by
  rw [routingModel]
  split <;> simp_all

theorem mem_routingModel {screens : List Screen} {model : Flow.RoutingModel}
    (given : model ∈ routingModel screens) :
    model = Entries.ofMembers (screens.map fun s => (s.id, s.navigationTargets)) := by
  rw [routingModel] at given
  split at given
  · cases given
  · exact (Option.some.inj given).symm

theorem keys_navigationTargets (screens : List Screen) :
    Entries.keys (screens.map fun s => (s.id, s.navigationTargets)) = screens.map Screen.id := by
  rw [Entries.keys, List.map_map]
  rfl

/-- Distinct ids leave every screen its entry. -/
theorem mem_routingModel_of_nodup {screens : List Screen} {model : Flow.RoutingModel}
    (distinct : (screens.map Screen.id).Nodup) (given : model ∈ routingModel screens) :
    model = screens.map fun s => (s.id, s.navigationTargets) := by
  rw [mem_routingModel given]
  exact Entries.ofMembers_eq_self (by rwa [keys_navigationTargets])

/-! ## Main statement -/

/--
Screens have a routing model unless there is one of them at most. Its keys are their ids in the
order in which they come first, and under each id it lists, each once and in the order of the
design, the targets of the last screen with this id, which are the screens that actions of its
footers and navigation lists name when they navigate: those and no others are the places where
footers, navigation lists and list items of this screen lead once it is compiled, after whatever
screens. When the ids are distinct, the document of the screens carries the model, with one entry
for each of its screens in their order.
-/
theorem routingModel_lists_routes (screens : List Screen) :
    (routingModel screens = none ↔ screens.length ≤ 1) ∧
      (∀ model ∈ routingModel screens, model.keys = firsts id (screens.map Screen.id) ∧
        ∀ id, model.get? id =
          (screens.reverse.find? fun s => s.id == id).map Screen.navigationTargets) ∧
      (∀ s : Screen, s.navigationTargets.Nodup ∧
        s.navigationTargets =
          firsts id ((s.walk.filter Element.isRouted).flatMap Element.targets) ∧
        ∀ previous target,
          target ∈ s.navigationTargets ↔ target ∈ (compileScreen previous s).routes) ∧
      ((screens.map Screen.id).Nodup → ∃ d, compileFlow screens = .ok d ∧
        d.routingModel = routingModel screens ∧
        ∀ model ∈ d.routingModel, model.keys = d.screens.map Flow.Screen.id ∧
          model = screens.map fun s => (s.id, s.navigationTargets)) := by
  refine ⟨routingModel_eq_none_iff screens, ?_, ?_, ?_⟩
  · intro model given
    rw [mem_routingModel given]
    constructor
    · rw [Entries.keys_ofMembers, ← keys_navigationTargets, Entries.keys]
    · intro id
      rw [Entries.get?_ofMembers, ← List.map_reverse, Entries.get?, List.find?_map, Option.map_map]
      rfl
  · intro s
    exact ⟨Design.nodup_navigationTargets s, Design.navigationTargets_eq_firsts s,
      fun previous target => (mem_routes_compileScreen previous s target).symm⟩
  · intro distinct
    refine ⟨_, compileFlow_of_nodup distinct, rfl, ?_⟩
    intro model given
    have entries := mem_routingModel_of_nodup distinct given
    refine ⟨?_, entries⟩
    rw [map_id_compileScreens, entries, keys_navigationTargets]

/-- An id that is used again keeps its place and takes the targets of its last screen. -/
example : routingModel [
    ⟨"START", "", [.widget (.footer
      ⟨"Go", none, none, none, none, some ⟨.navigate, some "END", none, none⟩⟩)]⟩,
    ⟨"END", "", []⟩,
    ⟨"START", "", [.ifBlock "again" [.widget (.footer
      ⟨"Go", none, none, none, none, some ⟨.navigate, some "START", none, none⟩⟩)] []]⟩] =
      some [("START", ["START"]), ("END", [])] := by
  decide +kernel

end ScreenFlow.Compile
