import ScreenFlow.Proofs.FieldNames

/-!
# What footers submit

A footer that navigates or completes submits references to the inputs of the form around it. The
mapper gathers them from elements, across screens and under several rules for taken keys; here the
payload is read off the compiled forms alone.
-/

namespace ScreenFlow.Flow

/-- The footer that a node is. -/
def Node.footer? : Node → Option Footer
  | .part (.footer attrs) => some attrs
  | _ => none

/-- The footers of a screen at every depth. -/
def Screen.footers (s : Screen) : List Footer :=
  (Node.walkList s.layout.children).filterMap Node.footer?

end ScreenFlow.Flow

namespace ScreenFlow.Design

/-- The footer that an element is. -/
def Element.footer? : Element → Option Footer
  | .widget (.footer attrs) => some attrs
  | _ => none

/-- The footers of a screen at every depth, in the order in which its layout shows them. -/
def Screen.shownFooters (s : Screen) : List Footer :=
  (s.insideForm.flatMap Element.walk).filterMap Element.footer?

/-- The payload of a footer, if it has one, is a map. -/
def Footer.HasMapPayload (f : Footer) : Prop :=
  ∀ action ∈ f.onClickAction, ∀ payload ∈ action.payload, payload.keys.Nodup

instance (f : Footer) : Decidable f.HasMapPayload :=
  inferInstanceAs (Decidable (∀ action ∈ f.onClickAction, ∀ payload ∈ action.payload,
    payload.keys.Nodup))

/-- Showing a screen loses and doubles no footer. -/
theorem shownFooters_perm (s : Screen) :
    s.shownFooters.Perm (s.walk.filterMap Element.footer?) := by
  -- No footer stands outside the form, at any depth, since its element would be form-class.
  have outside : (s.outsideForm.flatMap Element.walk).filterMap Element.footer? = [] := by
    rw [List.filterMap_eq_nil_iff]
    intro inner member
    obtain ⟨e, outside, inside⟩ := List.mem_flatMap.mp member
    have silent := (List.mem_filter.mp outside).2
    rw [Bool.not_eq_true', Element.isFormClass_eq_any_submits, List.any_eq_false] at silent
    have quiet := silent inner inside
    match inner, quiet with
    | .widget w, quiet =>
        cases w with
        | footer => exact absurd rfl quiet
        | _ => rfl
    | .ifBlock _ _ _, _ => rfl
    | .switchBlock _ _, _ => rfl
  have both := ((Compile.outsideForm_append_insideForm_perm s).flatMap_right Element.walk).filterMap
    Element.footer?
  rwa [List.flatMap_append, List.filterMap_append, outside, List.nil_append] at both

end ScreenFlow.Design

namespace ScreenFlow.Compile

open ScreenFlow.Json (Value)
open ScreenFlow.Design (Element Screen NamedField)
open ScreenFlow.Flow (Node)

/-- The entries that refer to names, in a scope. -/
def references (scope : String) (names : List String) : Entries Value :=
  names.map fun name => (name, .string ("$\x7b" ++ scope ++ "." ++ name ++ "\x7d"))

/--
What an action submits from a form with the given names after forms with the given earlier names:
the form, then, when the flow completes, the earlier data, then entries of its own.
-/
def submission (current prior : List String) (action : Design.Action) : Entries Value :=
  let form := references "form" current
  let data :=
    if action.name = .complete then references "data" (prior.filter fun name => name ∉ current)
    else []
  form ++ data ++ (action.payload.getD []).filter fun e => e.1 ∉ (form ++ data).keys

/-- The payload of a footer's action: a submission when it navigates or completes, else its own. -/
def submittedPayload (current prior : List String) (action : Design.Action) :
    Option (Entries Value) :=
  match action.name with
  | .navigate | .complete => some (submission current prior action)
  | _ => action.payload

@[simp]
theorem keys_references (scope : String) (names : List String) :
    (references scope names).keys = names := by
  rw [references, Entries.keys, List.map_map]
  exact List.map_id names

/-- The payload that the mapper computes, with the fields of its context replaced by their names. -/
theorem footerPayload_eq (action : Design.Action) (ctx : Context)
    (current : (ctx.currentFields.map NamedField.name).Nodup)
    (prior : (ctx.priorFields.map NamedField.name).Nodup)
    (own : ∀ payload ∈ action.payload, payload.keys.Nodup) :
    footerPayload action ctx =
      submission (ctx.currentFields.map NamedField.name) (ctx.priorFields.map NamedField.name)
        action := by
  have asReferences (scope : String) (fields : List NamedField) :
      (fields.map fun f => (f.name, reference scope f.name)) =
        references scope (fields.map NamedField.name) := by
    rw [references, List.map_map]
    rfl
  -- Each step adds entries under new keys. Where their own keys are distinct, that is a filter.
  have addNew (es : Entries Value) {more : Entries Value} (distinct : more.keys.Nodup) :
      es.putAllNew more = es ++ more.filter fun e => e.1 ∉ es.keys := by
    rw [Entries.putAllNew_eq, firstsFrom_eq_filter_firsts, firsts_eq_self Prod.fst distinct]
  have ownDistinct : (Entries.keys (action.payload.getD [])).Nodup := by
    cases h : action.payload with
    | none => exact List.nodup_nil
    | some payload => exact own payload h
  have form : Entries.putAllNew [] (references "form" (ctx.currentFields.map NamedField.name)) =
      references "form" (ctx.currentFields.map NamedField.name) := by
    rw [addNew [] (by rwa [keys_references]), List.nil_append, List.filter_eq_self]
    simp
  have data (names : List String) :
      (references "data" names).filter
          (fun e => e.1 ∉ (references "form" (ctx.currentFields.map NamedField.name)).keys) =
        references "data"
          (names.filter fun name => name ∉ ctx.currentFields.map NamedField.name) := by
    rw [keys_references, references, List.filter_map, references]
    rfl
  -- The middle step is taken only when the flow completes.
  unfold footerPayload submission formReference dataReference
  simp only [asReferences, form]
  by_cases completes : action.name = .complete
  · rw [if_pos completes, if_pos completes, addNew _ ownDistinct,
      addNew _ (by rwa [keys_references]), data]
  · rw [if_neg completes, if_neg completes, addNew _ ownDistinct, List.append_nil]

theorem name_mapFooterAction (ctx : Context) (action : Design.Action) :
    (mapFooterAction ctx action).name = action.name := by
  rw [mapFooterAction]
  split <;> rfl

/-- The payload of a mapped footer action. -/
theorem payload_mapFooterAction (action : Design.Action) (ctx : Context)
    (current : (ctx.currentFields.map NamedField.name).Nodup)
    (prior : (ctx.priorFields.map NamedField.name).Nodup)
    (own : ∀ payload ∈ action.payload, payload.keys.Nodup) :
    (mapFooterAction ctx action).payload =
      submittedPayload (ctx.currentFields.map NamedField.name)
        (ctx.priorFields.map NamedField.name) action := by
  rw [mapFooterAction, submittedPayload]
  cases h : action.name with
  | navigate | complete => exact congrArg some (footerPayload_eq action ctx current prior own)
  | dataExchange | updateData | openUrl => rfl

/-- Keys of a computed payload are distinct, whatever the design's own entries. -/
theorem nodup_keys_footerPayload (action : Design.Action) (ctx : Context) :
    (footerPayload action ctx).keys.Nodup := by
  -- Adding under new keys keeps keys distinct whatever is added, so only the start counts.
  have form : (Entries.putAllNew ([] : Entries Value)
      (ctx.currentFields.map fun f => (f.name, formReference f.name))).keys.Nodup :=
    Entries.nodup_keys_putAllNew (by exact List.nodup_nil) _
  unfold footerPayload
  by_cases completes : action.name = .complete
  · simp only [if_pos completes]
    exact Entries.nodup_keys_putAllNew (Entries.nodup_keys_putAllNew form _) _
  · simp only [if_neg completes]
    exact Entries.nodup_keys_putAllNew form _

/-- A field of the screen is submitted whatever else is: nothing that comes later takes its key. -/
theorem get?_footerPayload {ctx : Context} {name : String}
    (declared : name ∈ ctx.currentFields.map NamedField.name) (action : Design.Action) :
    (footerPayload action ctx).get? name = some (formReference name) := by
  have form : Entries.get? (ctx.currentFields.map fun f => (f.name, formReference f.name)) name =
      some (formReference name) := by
    obtain ⟨f, member, named⟩ := List.mem_map.mp declared
    have isSome : (ctx.currentFields.find? fun f => f.name == name).isSome := by
      rw [List.find?_isSome]
      exact ⟨f, member, beq_iff_eq.mpr named⟩
    obtain ⟨first, found⟩ := Option.isSome_iff_exists.mp isSome
    have firstNamed : first.name = name := by simpa using List.find?_some found
    rw [Entries.get?, List.find?_map, Option.map_map]
    show Option.map _ (ctx.currentFields.find? fun f => f.name == name) = _
    rw [found, Option.map_some, Function.comp_apply, firstNamed]
  unfold footerPayload
  by_cases completes : action.name = .complete
  · simp only [if_pos completes, Entries.get?_putAllNew, form, Option.or_some]
    rfl
  · simp only [if_neg completes, Entries.get?_putAllNew, form]
    rfl

theorem nodup_keys_mapFooterAction {action : Design.Action} (ctx : Context)
    (own : ∀ payload ∈ action.payload, payload.keys.Nodup) :
    ∀ payload ∈ (mapFooterAction ctx action).payload, payload.keys.Nodup := by
  intro payload member
  rw [mapFooterAction] at member
  cases h : action.name with
  | navigate | complete =>
      rw [h] at member
      cases member
      exact nodup_keys_footerPayload action ctx
  | dataExchange | updateData | openUrl =>
      rw [h] at member
      exact own payload member

/-! ## The footers of a compiled screen -/

theorem footer?_mapElement (ctx : Context) (e : Element) :
    (mapElement ctx e).footer? = e.footer?.map (mapFooter ctx) := by
  cases e with
  | widget w =>
      cases w with
      | heading level => cases level <;> rfl
      | body style => cases style <;> rfl
      | _ => rfl
  | ifBlock => rfl
  | switchBlock => rfl

theorem footer?_eq_none {n : Node} (other : n.isFooter = false) : n.footer? = none := by
  cases n with
  | part p =>
      cases p with
      | footer => cases other
      | _ => rfl
  | _ => rfl

/-- The footers of a compiled screen are its footers mapped, in the order of the layout. -/
theorem footers_compileScreen (previous : List Screen) (s : Screen) :
    (compileScreen previous s).footers =
      s.shownFooters.map (mapFooter (Context.ofScreen previous s)) := by
  -- What stands outside the form holds no footer, so only the form is left to walk.
  have outside : (Node.walkList (s.outsideForm.map
      (mapElement (Context.ofScreen previous s)))).filterMap Node.footer? = [] := by
    rw [List.filterMap_eq_nil_iff, Node.walkList_eq]
    intro n member
    obtain ⟨child, among, inside⟩ := List.mem_flatMap.mp member
    obtain ⟨e, border, rfl⟩ := List.mem_map.mp among
    exact footer?_eq_none
      (not_submits_of_mem_walk (isFormClass_of_mem_outsideForm border) inside).2
  have mapped : ((s.insideForm.flatMap Element.walk).map
      (mapElement (Context.ofScreen previous s))).filterMap Node.footer? =
        s.shownFooters.map (mapFooter (Context.ofScreen previous s)) := by
    rw [List.filterMap_map, Screen.shownFooters, List.map_filterMap]
    exact List.filterMap_congr fun e _ => footer?_mapElement _ e
  rw [Flow.Screen.footers, children_compileScreen, Node.walkList_eq, List.flatMap_append,
    List.filterMap_append, ← Node.walkList_eq, outside, List.nil_append, ← mapped]
  cases any : s.elements.any Element.isFormClass with
  | true =>
      rw [if_pos rfl, List.flatMap_cons, List.flatMap_nil, List.append_nil, formNode, Node.walk,
        walkList_map_mapElement, List.filterMap_cons_none rfl]
  | false => rw [insideForm_eq_nil any]; rfl

/-! ## Screens with distinct ids -/

theorem firstRepeatedId_eq_head?_repeatsFrom (seen : List String) (screens : List Screen) :
    firstRepeatedId seen screens = (repeatsFrom Screen.id seen screens).head?.map Screen.id := by
  induction screens generalizing seen with
  | nil => rfl
  | cons s screens ih =>
      rw [firstRepeatedId, repeatsFrom]
      by_cases again : s.id ∈ seen
      · rw [if_pos again, if_pos again]
        rfl
      · rw [if_neg again, if_neg again, ih]

/-- The search for a repeated id stops at the first of all repeats. -/
theorem firstRepeatedId_eq (screens : List Screen) :
    firstRepeatedId [] screens = (repeats Screen.id screens).head?.map Screen.id :=
  firstRepeatedId_eq_head?_repeatsFrom [] screens

/-- Screens with distinct ids compile, one by one. -/
theorem compileFlow_of_nodup {screens : List Screen} (distinct : (screens.map Screen.id).Nodup) :
    compileFlow screens =
      .ok ⟨Flow.version, routingModel screens, compileScreens [] screens⟩ := by
  rw [compileFlow, firstRepeatedId_eq, (repeats_eq_nil_iff Screen.id screens).mpr distinct]
  rfl

/-! ## Main statement -/

/-- What a footer says apart from captions: its label, what its action does and what it submits. -/
def footerSummary (f : Flow.Footer) : String × Option (ActionName × Option (Entries Value)) :=
  (f.label, f.onClickAction.map fun action => (action.name, action.payload))

/--
In the document of screens with distinct ids, the footers of each screen, at every depth, submit
references to the inputs in the form of that screen and, when they complete, to those in the forms
of the screens before it, and then entries of their own, all under distinct keys; footers with
another action keep their payload. The earlier names are the keys of the inherited data.
-/
theorem compileFlow_footer_payloads (screens : List Screen)
    (distinct : (screens.map Screen.id).Nodup)
    (maps : ∀ s ∈ screens, ∀ f ∈ s.walk.filterMap Element.footer?, f.HasMapPayload) :
    ∃ d, compileFlow screens = .ok d ∧ d.screens.length = screens.length ∧
      ∀ (i : Nat) (s : Screen) (w : Flow.Screen), screens[i]? = some s → d.screens[i]? = some w →
        let current := Flow.fieldNames w.formContent
        let prior := Flow.fieldNames ((d.screens.take i).flatMap Flow.Screen.formContent)
        let inherited := (inheritedSchema (collectNamedFields (screens.take i))).getD []
        s.shownFooters.Perm (s.walk.filterMap Element.footer?) ∧
          w.footers.map footerSummary =
            s.shownFooters.map (fun f => (f.label, f.onClickAction.map fun action =>
              (action.name, submittedPayload current prior action))) ∧
          (∀ f ∈ w.footers, ∀ action ∈ f.onClickAction, ∀ payload ∈ action.payload,
            payload.keys.Nodup) ∧
          (prior.filter fun name => name ∉ current) =
            inherited.keys.filter fun name => name ∉ current := by
  refine ⟨_, compileFlow_of_nodup distinct, length_compileScreens [] screens, ?_⟩
  intro i s w here compiled current prior inherited
  -- Screen `i` is compiled after the screens before it, whatever comes behind.
  have place : w = compileScreen (screens.take i) s := by
    have at_i := getElem?_compileScreens [] screens i
    rw [here, List.nil_append, Option.map_some] at at_i
    exact Option.some.inj (compiled.symm.trans at_i)
  -- The names in compiled forms are those that the mapper gathered from the elements.
  have currentEq : current = s.namedFields.map NamedField.name := by
    show Flow.fieldNames w.formContent = _
    rw [place, Flow.fieldNames, namesOf_compileScreen, Design.map_name_namedFields]
  have priorEq : prior = (collectNamedFields (screens.take i)).map NamedField.name := by
    show Flow.fieldNames (((compileScreens [] screens).take i).flatMap Flow.Screen.formContent) = _
    rw [take_compileScreens, fieldNames_compileScreens]
  have ownMaps : ∀ f ∈ s.shownFooters, f.HasMapPayload := by
    intro f shown
    exact maps s (List.mem_of_getElem? here) f ((Design.shownFooters_perm s).mem_iff.mp shown)
  have footers := footers_compileScreen (screens.take i) s
  rw [← place] at footers
  refine ⟨Design.shownFooters_perm s, ?_, ?_, ?_⟩
  · rw [footers, List.map_map, currentEq, priorEq]
    apply List.map_congr_left
    intro f shown
    show (f.label, _) = (f.label, _)
    refine congrArg (Prod.mk f.label) ?_
    rw [mapFooter, Option.map_map]
    apply Option.map_congr
    intro action isAction
    show ((mapFooterAction _ action).name, (mapFooterAction _ action).payload) = _
    have payload := payload_mapFooterAction action (Context.ofScreen (screens.take i) s)
      (nodup_map_firsts NamedField.name _) (nodup_collectNamedFields _)
      (ownMaps f shown action isAction)
    rw [payload]
    rw [name_mapFooterAction]
    rfl
  · rw [footers]
    intro f member
    obtain ⟨own, shown, rfl⟩ := List.mem_map.mp member
    intro action isAction
    obtain ⟨ownAction, isOwn, rfl⟩ := Option.map_eq_some_iff.mp isAction
    exact nodup_keys_mapFooterAction _ (ownMaps own shown ownAction isOwn)
  · show _ = (Entries.keys inherited).filter _
    rw [priorEq, keys_inheritedSchema (nodup_collectNamedFields _)]

/-- Two screens: a field and a footer in branches, and an entry whose key is taken. -/
def signUpScreens : List Screen := [
  ⟨"SIGN_UP", "Sign up", [
    .ifBlock "new" [.widget (.optIn ⟨"News", "news", none, none, none⟩)] [],
    .widget (.footer ⟨"Next", none, none, none, none, some ⟨.navigate, some "DONE", none, none⟩⟩)]⟩,
  ⟨"DONE", "Done", [
    .switchBlock "news" [("yes", [.widget (.footer ⟨"Finish", none, none, none, none,
      some ⟨.complete, none, none, some [("news", .null), ("via", .string "web")]⟩⟩)])],
    .widget (.optIn ⟨"Terms", "terms", none, none, none⟩)]⟩]

/-- The nested footer of the second screen refers to its form, then to the earlier field, and keeps
its own entry under the key that is free. -/
theorem signUpScreens_submitted :
    (signUpScreens.map Screen.id).Nodup ∧
      (∀ s ∈ signUpScreens, ∀ f ∈ s.walk.filterMap Element.footer?, f.HasMapPayload) ∧
      ∃ d, compileFlow signUpScreens = .ok d ∧ ∃ w, d.screens[1]? = some w ∧
        w.footers.map footerSummary = [("Finish", some (.complete, some [
          ("terms", .string "$\x7bform.terms\x7d"), ("news", .string "$\x7bdata.news\x7d"),
          ("via", .string "web")]))] := by
  have distinct : (signUpScreens.map Screen.id).Nodup := by decide
  have maps : ∀ s ∈ signUpScreens, ∀ f ∈ s.walk.filterMap Element.footer?, f.HasMapPayload := by
    decide
  obtain ⟨d, compiled, count, footers⟩ := compileFlow_footer_payloads signUpScreens distinct maps
  refine ⟨distinct, maps, d, compiled, ?_⟩
  rw [compileFlow_of_nodup distinct] at compiled
  cases compiled
  refine ⟨_, rfl, ?_⟩
  have second := (footers 1 _ _ rfl rfl).2.1
  rw [second]
  rfl

end ScreenFlow.Compile
