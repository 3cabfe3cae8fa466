import ScreenFlow.Proofs.Entries
import ScreenFlow.Proofs.FormLayout

/-!
# Field names

The fields that screens declare are gathered from elements, but what is submitted are the inputs in
the form. Grouping moves only elements that name no field past others, so the inputs in the form of
a compiled screen, read in order at every depth, give the names that the screen declares.
-/

namespace ScreenFlow.Flow

/-- The name of a part that is an input, as it stands. -/
def Part.inputName? : Part → Option String
  | .textInput attrs => some attrs.name
  | .textArea attrs => some attrs.name
  | .selector _ attrs => some attrs.name
  | .optIn attrs => some attrs.name
  | .datePicker attrs => some attrs.name
  | .calendarPicker attrs => some attrs.name
  | .photoPicker attrs => some attrs.name
  | .documentPicker attrs => some attrs.name
  | .line _ _ | .body _ _ | .embeddedLink _ | .image _ | .imageCarousel _ | .navigationList _
  | .footer _ => none

/-- The name of a node that is an input, as it stands. -/
def Node.inputName? : Node → Option String
  | .part p => p.inputName?
  | _ => none

/-- The nodes with a name to submit are the inputs. -/
theorem Node.isSome_inputName? (n : Node) : n.inputName?.isSome = n.isInput := by
  cases n with
  | part p =>
      cases p with
      | line style => cases style <;> rfl
      | body style => cases style <;> rfl
      | selector style => cases style <;> rfl
      | _ => rfl
  | _ => rfl

/-- Everything inside a form, at every depth. -/
def Node.formContent : Node → List Node
  | .form _ children => walkList children
  | _ => []

/-- Everything inside the forms of a screen, at every depth. -/
def Screen.formContent (s : Screen) : List Node := s.layout.children.flatMap Node.formContent

/-- The names of the inputs among nodes, in order, empty ones left out. -/
def namesOf (nodes : List Node) : List String :=
  (nodes.filterMap Node.inputName?).filter fun name => !name.isEmpty

/-- The distinct names of the inputs among nodes, first occurrence first. -/
def fieldNames (nodes : List Node) : List String := firsts id (namesOf nodes)

end ScreenFlow.Flow

namespace ScreenFlow.Design

/-- The names of the fields that a screen declares, repeats included. -/
def Screen.declaredNames (s : Screen) : List String := s.walk.filterMap Element.fieldName?

/-- The name attribute of an element that is an input, as it stands. -/
def Element.inputName? : Element → Option String
  | .widget w => w.inputName?
  | _ => none

/-- The elements with a name attribute to submit are the inputs. -/
theorem Element.isSome_inputName? (e : Element) :
    e.inputName?.isSome = (e.kind.role == .input) := by
  cases e with
  | widget w =>
      cases w with
      | heading level => cases level <;> rfl
      | body style => cases style <;> rfl
      | textInput purpose => cases purpose <;> rfl
      | selector style => cases style <;> rfl
      | _ => rfl
  | ifBlock => rfl
  | switchBlock => rfl

/-- An input declares the field of its name unless that is empty. -/
theorem Element.fieldName?_of_inputName? {e : Element} {name : String}
    (named : e.inputName? = some name) (filled : name ≠ "") : e.fieldName? = some name := by
  cases e with
  | widget w =>
      show w.inputName?.filter _ = _
      rw [show w.inputName? = some name from named]
      simp [filled]
  | ifBlock => cases named
  | switchBlock => cases named

/-- The name of the field that an element declares. -/
theorem Element.map_name_namedField? (e : Element) :
    e.namedField?.map NamedField.name = e.fieldName? := by
  rw [namedField?, Option.map_map]
  exact Option.map_id'

theorem map_name_namedFields (s : Screen) :
    s.namedFields.map NamedField.name = firsts id s.declaredNames := by
  rw [Screen.namedFields, firsts, map_firstsFrom, List.map_filterMap]
  simp only [Element.map_name_namedField?]
  rfl

/-- Only inputs name fields. -/
theorem Element.fieldName?_eq_none {e : Element} (silent : e.submits = false) :
    e.fieldName? = none := by
  cases e with
  | widget w =>
      cases w with
      | textInput purpose => cases purpose <;> cases silent
      | selector style => cases style <;> cases silent
      | textArea | optIn | datePicker | calendarPicker | photoPicker | documentPicker =>
          cases silent
      | _ => rfl
  | ifBlock => rfl
  | switchBlock => rfl

/-- Nothing inside an element outside the form names a field. -/
theorem Element.walk_fieldNames_eq_nil {e : Element} (outside : e.isFormClass = false) :
    e.walk.filterMap fieldName? = [] := by
  rw [isFormClass_eq_any_submits, List.any_eq_false] at outside
  rw [List.filterMap_eq_nil_iff]
  intro inner member
  exact fieldName?_eq_none (by simpa using outside inner member)

theorem Element.footer_fieldNames_eq_nil {e : Element} (footer : e.isFooter = true) :
    e.walk.filterMap fieldName? = [] := by
  cases e with
  | widget w =>
      cases w with
      | footer => rfl
      | _ => cases footer
  | ifBlock => cases footer
  | switchBlock => cases footer

end ScreenFlow.Design

namespace ScreenFlow.Compile

open ScreenFlow.Design (Element Screen NamedField)
open ScreenFlow.Flow (Node)

/-- Elements that contribute nothing can be left out of a list beforehand. -/
private theorem flatMap_filter {α β : Type} {keep : α → Bool} {part : α → List β} {as : List α}
    (silent : ∀ a ∈ as, keep a = false → part a = []) :
    (as.filter keep).flatMap part = as.flatMap part := by
  induction as with
  | nil => rfl
  | cons a as ih =>
      have rest := ih fun b member => silent b (List.mem_cons_of_mem a member)
      cases h : keep a with
      | true => rw [List.filter_cons_of_pos h, List.flatMap_cons, List.flatMap_cons, rest]
      | false =>
          rw [List.filter_cons_of_neg (by simp [h]), List.flatMap_cons, rest,
            silent a List.mem_cons_self h, List.nil_append]

/-- The elements inside the form declare all fields of a screen, in its order. -/
theorem insideForm_fieldNames (s : Screen) :
    (s.insideForm.flatMap Element.walk).filterMap Element.fieldName? = s.declaredNames := by
  -- Dropped here are elements outside the form, which name nothing, and footers, which name nothing
  -- either: so the order of the others is the order of the screen.
  have fields : (s.elements.filter fun e => e.isFormClass && !e.isFooter).flatMap
      (fun e => e.walk.filterMap Element.fieldName?) =
        s.elements.flatMap fun e => e.walk.filterMap Element.fieldName? := by
    apply flatMap_filter
    intro e _ dropped
    cases footer : e.isFooter with
    | true => exact Element.footer_fieldNames_eq_nil footer
    | false =>
        rw [footer, Bool.not_false, Bool.and_true] at dropped
        exact Element.walk_fieldNames_eq_nil dropped
  have footers : (s.elements.filter Element.isFooter).flatMap
      (fun e => e.walk.filterMap Element.fieldName?) = [] := by
    rw [List.flatMap_eq_nil_iff]
    intro e member
    exact Element.footer_fieldNames_eq_nil (List.mem_filter.mp member).2
  rw [List.filterMap_flatMap, Screen.insideForm, List.flatMap_append, fields, footers,
    List.append_nil, Screen.declaredNames, Screen.walk, List.filterMap_flatMap]

/-- Everything inside the form of a compiled screen, at every depth. -/
theorem formContent_compileScreen (previous : List Screen) (s : Screen) :
    (compileScreen previous s).formContent =
      (s.insideForm.flatMap Element.walk).map (mapElement (Context.ofScreen previous s)) := by
  have outside : ∀ es : List Element,
      (es.map (mapElement (Context.ofScreen previous s))).flatMap Node.formContent = [] := by
    intro es
    rw [List.flatMap_map, List.flatMap_eq_nil_iff]
    intro e _
    cases e <;> rfl
  rw [Flow.Screen.formContent, children_compileScreen, List.flatMap_append, outside,
    List.nil_append]
  cases any : s.elements.any Element.isFormClass with
  | true =>
      rw [if_pos rfl, List.flatMap_cons, List.flatMap_nil, List.append_nil, formNode,
        Node.formContent, walkList_map_mapElement]
  | false => rw [insideForm_eq_nil any]; rfl

theorem inputName?_mapElement (ctx : Context) (e : Element) :
    ((mapElement ctx e).inputName?.filter fun name => !name.isEmpty) = e.fieldName? := by
  cases e with
  | widget w =>
      cases w with
      | heading level => cases level <;> rfl
      | body style => cases style <;> rfl
      | _ => rfl
  | ifBlock => rfl
  | switchBlock => rfl

/-- The names in the form of a compiled screen are those that the screen declares. -/
theorem namesOf_compileScreen (previous : List Screen) (s : Screen) :
    Flow.namesOf (compileScreen previous s).formContent = s.declaredNames := by
  rw [formContent_compileScreen, Flow.namesOf, List.filterMap_map, List.filter_filterMap,
    ← insideForm_fieldNames]
  apply List.filterMap_congr
  intro e _
  exact inputName?_mapElement (Context.ofScreen previous s) e

/-! ## Several screens -/

theorem length_compileScreens (previous screens : List Screen) :
    (compileScreens previous screens).length = screens.length := by
  induction screens generalizing previous with
  | nil => rfl
  | cons s ss ih => rw [compileScreens, List.length_cons, List.length_cons, ih]

/-- Each screen is compiled after the screens before it. -/
theorem getElem?_compileScreens (previous screens : List Screen) (i : Nat) :
    (compileScreens previous screens)[i]? =
      screens[i]?.map (compileScreen (previous ++ screens.take i)) := by
  induction screens generalizing previous i with
  | nil => rfl
  | cons s ss ih =>
      cases i with
      | zero => simp [compileScreens]
      | succ i => simp [compileScreens, ih]

/-- A compiled screen comes from the screen in its place. -/
theorem exists_of_getElem?_compileScreens {screens : List Screen} {i : Nat} {w : Flow.Screen}
    (compiled : (compileScreens [] screens)[i]? = some w) :
    ∃ s, screens[i]? = some s ∧ compileScreen (screens.take i) s = w := by
  rw [getElem?_compileScreens, List.nil_append] at compiled
  exact Option.map_eq_some_iff.mp compiled

theorem take_compileScreens (previous screens : List Screen) (i : Nat) :
    (compileScreens previous screens).take i = compileScreens previous (screens.take i) := by
  induction screens generalizing previous i with
  | nil => simp [compileScreens]
  | cons s ss ih =>
      cases i with
      | zero => rfl
      | succ i => simp [compileScreens, ih]

/-- The fields of screens have the names that their elements give, first occurrence first. -/
theorem map_name_collectNamedFields (screens : List Screen) :
    (collectNamedFields screens).map NamedField.name =
      firsts id (screens.flatMap Screen.declaredNames) := by
  -- Names are made distinct screen by screen and then once more over all screens.
  have collected : (collectNamedFields screens).map NamedField.name =
      firsts id (screens.flatMap fun s => firsts id s.declaredNames) := by
    rw [collectNamedFields, firsts, map_firstsFrom, List.map_flatMap]
    simp only [Design.map_name_namedFields]
    rfl
  rw [collected, firsts_flatMap_firsts]

/-- The distinct names in the forms of compiled screens are those of the collected fields. -/
theorem fieldNames_compileScreens (previous screens : List Screen) :
    Flow.fieldNames ((compileScreens previous screens).flatMap Flow.Screen.formContent) =
      (collectNamedFields screens).map NamedField.name := by
  -- The context of a screen holds the screens before it; the names do not depend on it.
  have all : Flow.namesOf ((compileScreens previous screens).flatMap Flow.Screen.formContent) =
      screens.flatMap Screen.declaredNames := by
    induction screens generalizing previous with
    | nil => rfl
    | cons s ss ih =>
        have head := namesOf_compileScreen previous s
        have tail := ih (previous ++ [s])
        rw [Flow.namesOf] at head tail
        rw [compileScreens, List.flatMap_cons, Flow.namesOf, List.filterMap_append,
          List.filter_append, head, tail, List.flatMap_cons]
  rw [Flow.fieldNames, all, map_name_collectNamedFields]

/-! ## Inherited data -/

theorem nodup_collectNamedFields (screens : List Screen) :
    ((collectNamedFields screens).map NamedField.name).Nodup :=
  nodup_map_firsts NamedField.name _

/-- Fields with distinct names are inherited as they stand. -/
theorem inheritedSchema_eq {fields : List NamedField}
    (distinct : (fields.map NamedField.name).Nodup) :
    inheritedSchema fields = if fields.isEmpty then none
      else some (fields.map fun f => (f.name, Flow.DataField.string f.sample)) := by
  have keys : (Entries.keys (fields.map fun f => (f.name, Flow.DataField.string f.sample))).Nodup :=
    by rwa [Entries.keys, List.map_map]
  rw [inheritedSchema, Entries.ofMembers_eq_self keys]
  cases fields <;> rfl

/-- The inherited data, empty where there is none. -/
theorem getD_inheritedSchema {fields : List NamedField}
    (distinct : (fields.map NamedField.name).Nodup) : (inheritedSchema fields).getD [] =
      fields.map fun f => (f.name, Flow.DataField.string f.sample) := by
  rw [inheritedSchema_eq distinct]
  cases fields <;> rfl

/-- The keys of the inherited data are the names of the fields. -/
theorem keys_inheritedSchema {fields : List NamedField}
    (distinct : (fields.map NamedField.name).Nodup) :
    Entries.keys ((inheritedSchema fields).getD []) = fields.map NamedField.name := by
  rw [getD_inheritedSchema distinct, Entries.keys, List.map_map]
  rfl

end ScreenFlow.Compile
