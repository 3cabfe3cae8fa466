import ScreenFlow.Proofs.Review.Enumeration
import ScreenFlow.Proofs.Routing

/-!
# Documents without errors

A review looks at designs, and the compiler does not ask for one. Where a review finds no errors,
the document is nevertheless sound in every part that the compiler writes: navigating actions lead
somewhere, the routing model is closed, and every input is submitted by the footers around it.
-/

namespace ScreenFlow.Design

/-- A navigating action says where to. -/
def Action.IsAimed (a : Action) : Prop := a.name = .navigate → a.target?.isSome = true

end ScreenFlow.Design

namespace ScreenFlow.Review

open ScreenFlow.Design (Element Screen Widget)

/-! ## What the rules leave without errors -/

/-- There are no errors among findings. -/
def NoErrors (fs : List Finding) : Prop := ∀ f ∈ fs, f.isError = false

@[simp]
theorem noErrors_append (fs gs : List Finding) :
    NoErrors (fs ++ gs) ↔ NoErrors fs ∧ NoErrors gs :=
  List.forall_mem_append

theorem isError_missing (field message : String) :
    (Finding.missing field message).isError = true := rfl

theorem not_isBlank_of_required {field what value : String}
    (clean : NoErrors (required field what value)) : Text.isBlank value = false := by
  by_contra filled
  have blank : Text.isBlank value = true := by simpa using filled
  rw [required, if_pos blank] at clean
  have none := clean _ List.mem_cons_self
  rw [isError_missing] at none
  cases none

/-- A blank name is found, whatever the label. -/
theorem not_isBlank_of_inputIdentity {limits : Limits} {label name : String}
    (clean : NoErrors (inputIdentity limits label name)) : Text.isBlank name = false := by
  rw [inputIdentity, noErrors_append] at clean
  exact not_isBlank_of_required clean.2

theorem isAimed_of_actionTarget {field : String} {action : Option Design.Action}
    (clean : NoErrors (actionTarget field action)) : ∀ a ∈ action, a.IsAimed := by
  intro a is navigates
  by_contra lost
  have missing : a.target? = none := by simpa using lost
  rw [Option.mem_def.mp is, actionTarget, if_pos ⟨navigates, missing⟩] at clean
  have none := clean _ List.mem_cons_self
  rw [isError_missing] at none
  cases none

theorem isAimed_of_requiredAction {field : String} {action : Option Design.Action}
    (clean : NoErrors (requiredAction field action)) : ∀ a ∈ action, a.IsAimed := by
  cases action with
  | none => simp
  | some a => exact isAimed_of_actionTarget clean

/-- Every kind of input has a name that is looked at. -/
theorem not_isBlank_of_widgetFindings {limits : Limits} {w : Widget}
    (clean : NoErrors (widgetFindings limits w)) {name : String}
    (named : w.inputName? = some name) : Text.isBlank name = false := by
  cases w with
  | textInput purpose attrs | textArea attrs =>
      cases named
      simp only [widgetFindings, noErrors_append] at clean
      exact not_isBlank_of_inputIdentity clean.1
  | selector style attrs | datePicker attrs | calendarPicker attrs =>
      cases named
      simp only [widgetFindings, noErrors_append] at clean
      exact not_isBlank_of_inputIdentity clean.1.1
  | optIn attrs =>
      cases named
      simp only [widgetFindings, noErrors_append] at clean
      exact not_isBlank_of_required clean.1.2
  | photoPicker attrs | documentPicker attrs =>
      cases named
      exact not_isBlank_of_inputIdentity clean
  | _ => cases named

/-- Every place for an action is looked at, those of list items included. -/
theorem isAimed_of_widgetFindings {limits : Limits} {w : Widget}
    (clean : NoErrors (widgetFindings limits w)) : ∀ a ∈ w.actions, a.IsAimed := by
  cases w with
  | selector style attrs | datePicker attrs | calendarPicker attrs | optIn attrs =>
      simp only [widgetFindings, noErrors_append] at clean
      simpa [Widget.actions] using isAimed_of_actionTarget clean.2
  | embeddedLink attrs | footer attrs =>
      simp only [widgetFindings, noErrors_append] at clean
      simpa [Widget.actions] using isAimed_of_requiredAction clean.2
  | navigationList attrs =>
      simp only [widgetFindings, noErrors_append] at clean
      obtain ⟨⟨-, items⟩, whole⟩ := clean
      rw [Widget.actions, List.forall_mem_append]
      constructor
      · intro a member
        obtain ⟨item, among, own⟩ := List.mem_filterMap.mp member
        exact isAimed_of_actionTarget (List.forall_mem_flatMap.mp items item among) a own
      · simpa using isAimed_of_actionTarget whole
  | _ => exact List.forall_mem_nil _

/-! ## A review without errors -/

/-- A report on a document without errors comes from elements without errors, at every depth. -/
theorem noErrors_of_isValid {limits : Limits} {screens : List Screen}
    (clean : (documentReport limits screens).isValid = true) :
    ∀ s ∈ screens, ∀ e ∈ s.walk, NoErrors (ownFindings limits e) := by
  intro s member e inside
  have none : (documentReport limits screens).filed .error = [] := List.isEmpty_iff.mp clean
  rw [filed_documentReport, List.append_eq_nil_iff, List.flatMap_eq_nil_iff] at none
  have elements := (List.append_eq_nil_iff.mp (none.1 s member)).1
  rw [elementwise, List.flatMap_eq_nil_iff] at elements
  -- The element stands at some place of one of the components, which are counted.
  obtain ⟨component, among, within⟩ := List.mem_flatMap.mp inside
  rw [← Element.map_snd_placed] at within
  obtain ⟨p, placed, rfl⟩ := List.mem_map.mp within
  rw [← List.zipIdx_map_fst 1 s.elements] at among
  obtain ⟨c, counted, rfl⟩ := List.mem_map.mp among
  have own := List.map_eq_nil_iff.mp (List.flatMap_eq_nil_iff.mp (elements c counted) p placed)
  rw [checkElement_empty, Report.ofFindings, Report.filed_pushAll, List.append_eq_nil_iff,
    List.filter_eq_nil_iff] at own
  intro f found
  simpa [Finding.isError] using own.2 f found

end ScreenFlow.Review

namespace ScreenFlow.Compile

open ScreenFlow.Design (Element Screen NamedField)
open ScreenFlow.Flow (Node)
open ScreenFlow.Review (Limits documentReport)

/-! ## What is compiled from it -/

theorem name_mapActionOf (ctx : Context) (e : Element) (action : Design.Action) :
    (mapActionOf ctx e action).name = action.name := by
  rw [mapActionOf]
  split
  · exact name_mapFooterAction ctx action
  · rfl

/-- Navigating actions of a node have a next screen exactly where those of its element have a
target. -/
theorem next_isSome_mapElement (ctx : Context) (e : Element) :
    (∀ action ∈ (mapElement ctx e).actions, action.name = .navigate → action.next.isSome = true) ↔
      ∀ action ∈ e.actions, action.IsAimed := by
  rw [actions_mapElement, List.forall_mem_map]
  simp only [name_mapActionOf, next_mapActionOf, Option.isSome_map, Design.Action.IsAimed]

/-- Every footer of a compiled screen that navigates or completes submits each field of the
screen. -/
theorem submits_of_mem_footers {previous : List Screen} {s : Screen} {name : String}
    (declared : name ∈ s.declaredNames) :
    ∀ f ∈ (compileScreen previous s).footers, ∀ action ∈ f.onClickAction,
      action.name = .navigate ∨ action.name = .complete →
        ∃ payload, action.payload = some payload ∧ payload.keys.Nodup ∧
          payload.get? name = some (formReference name) := by
  have current : name ∈ (Context.ofScreen previous s).currentFields.map NamedField.name := by
    show name ∈ s.namedFields.map NamedField.name
    rw [Design.map_name_namedFields, ← List.map_id (firsts id s.declaredNames), mem_map_firsts,
      List.map_id]
    exact declared
  rw [footers_compileScreen, List.forall_mem_map]
  intro f _ action isAction submits
  obtain ⟨own, -, rfl⟩ := Option.map_eq_some_iff.mp isAction
  rw [name_mapFooterAction] at submits
  refine ⟨footerPayload own (Context.ofScreen previous s), ?_, nodup_keys_footerPayload own _,
    get?_footerPayload current own⟩
  rcases submits with navigates | completes
  · rw [mapFooterAction, navigates]
  · rw [mapFooterAction, completes]

/-! ## Main statement -/

/--
Screens that a review finds no errors in, within whatever limits, compile. In their document every
navigating action, of every node at every depth, has a next screen; two screens or more have a
routing model, and every target that it lists is a key of it; and every element of a screen that is
an input, at every depth, has a name, under which every footer of this screen that navigates or
completes, at every depth, submits the reference to it.
-/
theorem compileFlow_sound_of_isValid (limits : Limits) (screens : List Screen)
    (clean : (documentReport limits screens).isValid = true) :
    ∃ d, compileFlow screens = .ok d ∧ d.screens.length = screens.length ∧
      (∀ n ∈ d.nodes, ∀ action ∈ n.actions, action.name = .navigate →
        action.next.isSome = true) ∧
      (2 ≤ screens.length → ∃ model, d.routingModel = some model ∧
        ∀ entry ∈ model, ∀ target ∈ entry.2, target ∈ model.keys) ∧
      ∀ (i : Nat) (s : Screen) (w : Flow.Screen), screens[i]? = some s → d.screens[i]? = some w →
        ∀ e ∈ s.walk, e.kind.role = .input →
          ∃ name, e.inputName? = some name ∧ name ≠ "" ∧
            ∀ f ∈ w.footers, ∀ action ∈ f.onClickAction,
              action.name = .navigate ∨ action.name = .complete →
                ∃ payload, action.payload = some payload ∧ payload.keys.Nodup ∧
                  payload.get? name = some (.string ("$\x7bform." ++ name ++ "\x7d")) := by
  obtain ⟨distinct, known⟩ := Review.references_of_isValid clean
  have noErrors := Review.noErrors_of_isValid clean
  refine ⟨_, compileFlow_of_nodup distinct, length_compileScreens [] screens, ?_, ?_, ?_⟩
  · rw [Flow.Document.nodes, List.forall_mem_flatMap,
      forall_nodes_compileScreens (by simp [Node.actions]) next_isSome_mapElement]
    intro s member e inside
    cases e with
    | widget w => exact Review.isAimed_of_widgetFindings (noErrors s member _ inside)
    | ifBlock => exact List.forall_mem_nil _
    | switchBlock => exact List.forall_mem_nil _
  · intro several
    have company : routingModel screens ≠ none := by
      rw [ne_eq, routingModel_eq_none_iff]
      omega
    obtain ⟨model, given⟩ := Option.ne_none_iff_exists'.mp company
    refine ⟨model, given, ?_⟩
    rw [mem_routingModel_of_nodup distinct given, keys_navigationTargets, List.forall_mem_map]
    exact known
  · intro i s w here compiled e inside isInput
    obtain ⟨t, inPlace, rfl⟩ := exists_of_getElem?_compileScreens compiled
    obtain rfl : s = t := Option.some.inj (here.symm.trans inPlace)
    have isNamed : e.inputName?.isSome = true := by
      rw [Element.isSome_inputName?, isInput]
      rfl
    obtain ⟨name, named⟩ := Option.isSome_iff_exists.mp isNamed
    have filled : name ≠ "" := by
      rintro rfl
      cases e with
      | widget w =>
          have notBlank := Review.not_isBlank_of_widgetFindings
            (noErrors s (List.mem_of_getElem? here) _ inside) named
          cases notBlank
      | ifBlock => cases named
      | switchBlock => cases named
    have declared : name ∈ s.declaredNames :=
      List.mem_filterMap.mpr ⟨e, inside, Element.fieldName?_of_inputName? named filled⟩
    exact ⟨name, named, filled, submits_of_mem_footers declared⟩

/-- Two screens; on the first, an input stands in a case in a branch, and a footer in a branch. -/
def bookingScreens : List Screen := [
  ⟨"STAY", "Stay", [
    .ifBlock "returning" [.switchBlock "plan" [("long", [
      .widget (.textArea ⟨"Wishes", "wishes", none, none, none, none, none, none⟩)])]] [],
    .ifBlock "ready" [.widget (.footer
      ⟨"Next", none, none, none, none, some ⟨.navigate, some "DONE", none, none⟩⟩)] []]⟩,
  ⟨"DONE", "Done", [.widget (.footer
    ⟨"Finish", none, none, none, none, some ⟨.complete, none, none, none⟩⟩)]⟩]

/-- A review finds nothing wrong with the screens, and the footer of the first one submits its
input. -/
theorem bookingScreens_submit :
    (documentReport .default bookingScreens).isValid = true ∧
      ∃ d, compileFlow bookingScreens = .ok d ∧ d.routingModel.isSome = true ∧
        ∃ w, d.screens[0]? = some w ∧ ∃ f ∈ w.footers, ∃ action ∈ f.onClickAction,
          ∃ payload, action.payload = some payload ∧
            payload.get? "wishes" = some (.string "$\x7bform.wishes\x7d") := by
  have clean : (documentReport .default bookingScreens).isValid = true := by decide +kernel
  obtain ⟨d, compiled, -, -, routed, submits⟩ :=
    compileFlow_sound_of_isValid .default bookingScreens clean
  obtain ⟨model, given, -⟩ := routed (by decide)
  refine ⟨clean, d, compiled, by rw [given]; rfl, ?_⟩
  rw [compileFlow_of_nodup (by decide)] at compiled
  cases compiled
  obtain ⟨name, named, -, each⟩ := submits 0 _ _ rfl rfl
    (.widget (.textArea ⟨"Wishes", "wishes", none, none, none, none, none, none⟩))
    (by simp [Screen.walk, Element.walk, Element.walkBranch, Element.walkCases]) rfl
  cases named
  obtain ⟨payload, own, -, reference⟩ := each _ List.mem_cons_self _ rfl (.inl rfl)
  exact ⟨_, rfl, _, List.mem_cons_self, _, rfl, payload, own, reference⟩

end ScreenFlow.Compile
