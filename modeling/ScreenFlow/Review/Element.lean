import ScreenFlow.Design.Element
import ScreenFlow.Review.Finding
import ScreenFlow.Review.Limits

/-!
# Reviewing an element

The findings on an element alone depend on its attributes; the report on an element adds the reports
on everything in its branches, each with its place in the branch.
-/

namespace ScreenFlow.Review

open ScreenFlow.Design

/-! ## Rules on attributes -/

/-- An attribute must hold more than white space. -/
def required (field what value : String) : List Finding :=
  if Text.isBlank value then [.missing field (what ++ " is required")] else []

/-- An attribute has at most so many characters. -/
def maxLength (field what value : String) (limit : UInt64) : List Finding :=
  let current := value.length
  if limit.toNat < current then
    [.exceeded field
      (what ++ " exceeds " ++ toString limit.toNat ++ " characters (" ++ toString current ++ ")")
      limit.toNat current]
  else []

/-- A required attribute has at most so many characters; its length counts only when it is there. -/
def requiredText (field what value : String) (limit : UInt64) : List Finding :=
  match required field what value with
  | [] => maxLength field what value limit
  | findings => findings

/-- A caption that fits may still be close to its limit. -/
def captionText (limits : Limits) (text : String) : List Finding :=
  match requiredText "text" "Text" text limits.captionText with
  | [] =>
    if limits.captionWarningThreshold.toNat < text.length then
      [.approaching "text"
        ("Text is approaching the " ++ toString limits.captionText.toNat ++ " character limit (" ++
          toString text.length ++ ")")
        limits.captionText.toNat text.length]
    else []
  | findings => findings

/-- Inputs have a label and a name. -/
def inputIdentity (limits : Limits) (label name : String) : List Finding :=
  requiredText "label" "Label" label limits.inputLabel ++ required "name" "Name" name

/-- A helper text, where there is one, has at most so many characters. -/
def helperText (limits : Limits) (text : Option String) : List Finding :=
  match text with
  | some text => maxLength "helperText" "Helper text" text limits.helperText
  | none => []

/-- A navigating action names its target. -/
def actionTarget (field : String) (action : Option Action) : List Finding :=
  match action with
  | some action =>
    if action.name = .navigate ∧ action.target? = none then
      [.missing field "Navigation target screen is required"]
    else []
  | none => []

/-- An action is there and names its target when it navigates. -/
def requiredAction (field : String) (action : Option Action) : List Finding :=
  match action with
  | some action => actionTarget field (some action)
  | none => [.missing field "Action is required"]

/-- A list has at most so many items. -/
def maxItems (field what : String) (count : Nat) (limit : UInt64) : List Finding :=
  if limit.toNat < count then
    [.exceeded field
      (what ++ " has " ++ toString count ++ " items; the maximum is " ++ toString limit.toNat)
      limit.toNat count]
  else []

/-- A selector has options. -/
def selectorOptions (source : DataSource) : List Finding :=
  if source.isEmpty then
    [.missing "dataSource" "At least one option or a data source is required"]
  else []

/-! ## An element alone -/

/-- The findings on a widget. -/
def widgetFindings (limits : Limits) : Widget → List Finding
  | .heading _ attrs => requiredText "text" "Text" attrs.text limits.headingText
  | .body .body attrs => requiredText "text" "Text" attrs.text limits.bodyText
  | .body .caption attrs => captionText limits attrs.text
  | .richText attrs => requiredText "text" "Text" attrs.text limits.richText
  | .textInput _ attrs =>
    inputIdentity limits attrs.label attrs.name ++ helperText limits attrs.helperText
  | .textArea attrs =>
    inputIdentity limits attrs.label attrs.name ++ helperText limits attrs.helperText
  | .selector _ attrs =>
    inputIdentity limits attrs.label attrs.name ++ selectorOptions attrs.dataSource ++
      actionTarget "onSelectAction" attrs.onSelectAction
  | .optIn attrs =>
    required "label" "Label" attrs.label ++ required "name" "Name" attrs.name ++
      actionTarget "onClickAction" attrs.onClickAction
  | .embeddedLink attrs =>
    requiredText "text" "Text" attrs.text limits.embeddedLinkText ++
      requiredAction "onClickAction" attrs.onClickAction
  | .datePicker attrs =>
    inputIdentity limits attrs.label attrs.name ++ helperText limits attrs.helperText ++
      actionTarget "onSelectAction" attrs.onSelectAction
  | .calendarPicker attrs =>
    inputIdentity limits attrs.label attrs.name ++ helperText limits attrs.helperText ++
      actionTarget "onSelectAction" attrs.onSelectAction
  | .image attrs => required "src" "Image source" attrs.src
  | .imageCarousel attrs =>
    if attrs.images.isEmpty then [.missing "images" "At least one image is required"] else []
  | .photoPicker attrs => inputIdentity limits attrs.label attrs.name
  | .documentPicker attrs => inputIdentity limits attrs.label attrs.name
  | .navigationList attrs =>
    required "name" "Name" attrs.name ++
      maxItems "items" "Navigation list" attrs.items.length limits.navigationListItems ++
      attrs.items.flatMap (fun item => actionTarget "items.onClickAction" item.onClickAction) ++
      actionTarget "onClickAction" attrs.onClickAction
  | .footer attrs =>
    required "label" "Label" attrs.label ++ requiredAction "onClickAction" attrs.onClickAction

/-- The findings on an element without those on its branches. -/
def ownFindings (limits : Limits) : Element → List Finding
  | .widget w => widgetFindings limits w
  | .ifBlock condition thenBranch _ =>
    required "condition" "Condition" condition ++
      if thenBranch.isEmpty then
        [(Finding.plain .warning .missingRequiredField "Then branch is empty").onField "then"]
      else []
  | .switchBlock value cases =>
    required "value" "Value" value ++
      if cases.isEmpty then [.missing "cases" "At least one case is required"] else []

/-! ## An element with its branches -/

/-- The place of an element in a branch, counted from one. -/
def branchPlace (branch : String) (position : Nat) : String :=
  branch ++ "[" ++ toString position ++ "]: "

/-- The name of the branch of a case. -/
def caseBranch (name : String) : String := "case \"" ++ name ++ "\""

mutual

/-- The report on an element and everything in its branches. -/
def elementReport (limits : Limits) : Element → Report
  | .widget w => .ofFindings (ownFindings limits (.widget w))
  | .ifBlock condition thenBranch elseBranch =>
    let own := Report.ofFindings (ownFindings limits (.ifBlock condition thenBranch elseBranch))
    mergeBranch limits "else" 1 (mergeBranch limits "then" 1 own thenBranch) elseBranch
  | .switchBlock value cases =>
    mergeCases limits (.ofFindings (ownFindings limits (.switchBlock value cases))) cases
termination_by structural e => e

/-- A report with those on the elements of a branch from a position on. -/
def mergeBranch (limits : Limits) (branch : String) (position : Nat) (report : Report) :
    List Element → Report
  | [] => report
  | e :: es =>
    mergeBranch limits branch (position + 1)
      (report.merge (elementReport limits e) (branchPlace branch position)) es
termination_by structural es => es

/-- A report with those on the elements of cases. -/
def mergeCases (limits : Limits) (report : Report) : List (String × List Element) → Report
  | [] => report
  | (name, es) :: cs => mergeCases limits (mergeBranch limits (caseBranch name) 1 report es) cs
termination_by structural cs => cs

end

end ScreenFlow.Review
