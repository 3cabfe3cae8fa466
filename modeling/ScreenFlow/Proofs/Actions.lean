import ScreenFlow.Proofs.Design.Targets

/-!
# The actions of elements and nodes

A node has the actions of its element, in the same order, each of them mapped: those of a footer
with what the form submits, all others as they stand.
-/

namespace ScreenFlow.Flow

/-- The actions of a part, those of its items first. -/
def Part.actions : Part → List Action
  | .selector _ attrs => attrs.onSelectAction.toList
  | .optIn attrs => attrs.onClickAction.toList
  | .embeddedLink attrs => attrs.onClickAction.toList
  | .datePicker attrs => attrs.onSelectAction.toList
  | .calendarPicker attrs => attrs.onSelectAction.toList
  | .navigationList attrs =>
    attrs.listItems.filterMap NavigationItem.onClickAction ++ attrs.onClickAction.toList
  | .footer attrs => attrs.onClickAction.toList
  | .line _ _ | .body _ _ | .textInput _ | .textArea _ | .image _ | .imageCarousel _
  | .photoPicker _ | .documentPicker _ => []

/-- The actions of a node itself. -/
def Node.actions : Node → List Action
  | .part p => p.actions
  | _ => []

end ScreenFlow.Flow

namespace ScreenFlow.Compile

open ScreenFlow.Design (Element)

/-- How the actions of an element are mapped. -/
def mapActionOf (ctx : Context) (e : Element) : Design.Action → Flow.Action :=
  if e.isFooter then mapFooterAction ctx else mapAction

/-- The node of an element has the mapped actions of the element. -/
theorem actions_mapElement (ctx : Context) (e : Element) :
    (mapElement ctx e).actions = e.actions.map (mapActionOf ctx e) := by
  cases e with
  | widget w =>
      cases w with
      | heading level => cases level <;> rfl
      | body style => cases style <;> rfl
      | selector style attrs => exact Option.toList_map
      | datePicker attrs => exact Option.toList_map
      | calendarPicker attrs => exact Option.toList_map
      | optIn attrs => exact Option.toList_map
      | embeddedLink attrs => exact Option.toList_map
      | footer attrs => exact Option.toList_map
      | navigationList attrs =>
          show (attrs.items.map mapNavigationItem).filterMap Flow.NavigationItem.onClickAction ++
            (attrs.onClickAction.map mapAction).toList =
              (attrs.items.filterMap Design.NavigationItem.onClickAction ++
                attrs.onClickAction.toList).map mapAction
          rw [List.map_append, Option.toList_map, List.filterMap_map, List.map_filterMap]
          rfl
      | _ => rfl
  | ifBlock => rfl
  | switchBlock => rfl

end ScreenFlow.Compile
