import ScreenFlow.Design.Screen
import ScreenFlow.Review.Element

/-!
# Reviewing screens and documents

A review validates a design against limits. The report on a screen holds the reports on its
components and then the findings on their numbers. The report on a document holds the reports on its
screens and then the findings on their number, on ids that are used again and on navigation targets
that are no screens.
-/

namespace ScreenFlow.Review

open ScreenFlow.Design

/-! ## Screens -/

/-- The place of a component on a screen, counted from one. -/
def componentPlace (position : Nat) : String := "Component " ++ toString position ++ ": "

/-- The place of a screen in a document. -/
def screenPlace (title : String) : String := "Screen \"" ++ title ++ "\": "

/-- A screen has at most so many of something. -/
def maxOnScreen (what : String) (count : Nat) (limit : UInt64) : List Finding :=
  if limit.toNat < count then
    [.exceeded "elements"
      ("Screen has " ++ toString count ++ " " ++ what ++ "; the maximum is " ++
        toString limit.toNat)
      limit.toNat count]
  else []

/-- A screen has at most so many components, and may be close to that. -/
def componentCount (limits : Limits) (count : Nat) : List Finding :=
  match maxOnScreen "components" count limits.componentsPerScreen with
  | [] =>
    if limits.componentsWarningThreshold.toNat < count then
      [.approaching "elements"
        ("Screen has " ++ toString count ++ " components and is approaching the maximum of " ++
          toString limits.componentsPerScreen.toNat)
        limits.componentsPerScreen.toNat count]
    else []
  | findings => findings

/-- The findings on the numbers of components of a screen. -/
def screenFindings (limits : Limits) (s : Screen) : List Finding :=
  componentCount limits s.elements.length ++
    maxOnScreen "form components" (s.elements.countP Element.isFormClass)
      limits.formComponentsPerScreen ++
    maxOnScreen "embedded links" (s.elements.countP Element.isEmbeddedLink)
      limits.embeddedLinksPerScreen ++
    maxOnScreen "footers" (s.elements.countP Element.isFooter) limits.footersPerScreen

/-- A report with those on components from a position on. -/
def mergeComponents (limits : Limits) (position : Nat) (report : Report) : List Element → Report
  | [] => report
  | e :: es =>
    mergeComponents limits (position + 1)
      (report.merge (elementReport limits e) (componentPlace position)) es

/-- The report on a screen. -/
def screenReport (limits : Limits) (s : Screen) : Report :=
  (mergeComponents limits 1 .empty s.elements).pushAll (screenFindings limits s)

/-! ## Documents -/

/-- A document has at most so many screens. -/
def screenCount (limits : Limits) (count : Nat) : List Finding :=
  if limits.screensPerDocument.toNat < count then
    [.exceeded "screens"
      ("Document has " ++ toString count ++ " screens; the maximum is " ++
        toString limits.screensPerDocument.toNat)
      limits.screensPerDocument.toNat count]
  else []

/-- The findings on ids that an earlier screen has. -/
def repeatedIds (screens : List Screen) : List Finding :=
  (repeats Screen.id screens).map fun s =>
    .invalidReference "id" ("Screen id \"" ++ s.id ++ "\" is used by more than one screen")

/-- The findings on the targets of a screen that are no screens. -/
def missingTargets (ids : List String) (s : Screen) : List Finding :=
  (s.navigationTargets.filter fun target => target ∉ ids).map fun target =>
    (Finding.invalidReference "onClickAction"
      ("Navigation target \"" ++ target ++ "\" does not exist")).inContext (screenPlace s.title)

/-- The findings on a document besides those on its screens. -/
def documentFindings (limits : Limits) (screens : List Screen) : List Finding :=
  screenCount limits screens.length ++ repeatedIds screens ++
    screens.flatMap (missingTargets (screens.map Screen.id))

/-- The report on a document. -/
def documentReport (limits : Limits) (screens : List Screen) : Report :=
  (screens.foldl (fun report s => report.merge (screenReport limits s) (screenPlace s.title))
    Report.empty).pushAll (documentFindings limits screens)

end ScreenFlow.Review
