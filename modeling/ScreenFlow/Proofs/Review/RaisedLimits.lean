import ScreenFlow.Proofs.Review.Enumeration
import Mathlib.Data.List.Flatten

/-!
# Raised limits

Raising limits only takes errors away. A rule that measures reports at most what it reported before,
the other rules report the same, and no rule for errors waits until another one has passed: what
follows a passed check, that a caption or a screen is close to its limit, gives a warning. So under
higher limits the errors on a document are some of those under the lower ones, in the same order.
They are compared without what names a limit.
-/

namespace ScreenFlow.Review

open ScreenFlow.Design (Element Screen Widget)

/-- One table has at least the entries of another. Percentages are free. -/
structure Limits.Raised (low high : Limits) : Prop where
  headingText : low.headingText ≤ high.headingText
  bodyText : low.bodyText ≤ high.bodyText
  captionText : low.captionText ≤ high.captionText
  richText : low.richText ≤ high.richText
  inputLabel : low.inputLabel ≤ high.inputLabel
  helperText : low.helperText ≤ high.helperText
  embeddedLinkText : low.embeddedLinkText ≤ high.embeddedLinkText
  navigationListItems : low.navigationListItems ≤ high.navigationListItems
  componentsPerScreen : low.componentsPerScreen ≤ high.componentsPerScreen
  formComponentsPerScreen : low.formComponentsPerScreen ≤ high.formComponentsPerScreen
  embeddedLinksPerScreen : low.embeddedLinksPerScreen ≤ high.embeddedLinksPerScreen
  footersPerScreen : low.footersPerScreen ≤ high.footersPerScreen
  screensPerDocument : low.screensPerDocument ≤ high.screensPerDocument

/-! ## Errors without limits -/

/-- A finding without its message and its limit. -/
def Finding.erased (f : Finding) : Finding := { f with message := "", limit := none }

@[simp]
theorem erased_inContext (context : String) (f : Finding) :
    (f.inContext context).erased = f.erased := rfl

/-- The errors among findings, without their messages and limits. -/
def erasedErrors (fs : List Finding) : List Finding :=
  (fs.filter fun f => f.kind = .error).map Finding.erased

@[simp]
theorem erasedErrors_append (fs gs : List Finding) :
    erasedErrors (fs ++ gs) = erasedErrors fs ++ erasedErrors gs := by
  rw [erasedErrors, List.filter_append, List.map_append]
  rfl

/-- Findings have no errors but some of those among others, in the same order. -/
def Eases (high low : List Finding) : Prop := (erasedErrors high).Sublist (erasedErrors low)

namespace Eases

theorem refl (fs : List Finding) : Eases fs fs := List.Sublist.refl _

theorem append {high low high' low' : List Finding} (first : Eases high low)
    (second : Eases high' low') : Eases (high ++ high') (low ++ low') := by
  rw [Eases, erasedErrors_append, erasedErrors_append]
  exact List.Sublist.append first second

end Eases

/-! ## Rules that measure -/

/-- An error against a limit stays, but for its message and limit, or goes away. -/
theorem eases_exceeded {low high : UInt64} (raised : low ≤ high)
    (field lowMessage highMessage : String) (count : Nat) :
    Eases (if high.toNat < count then [.exceeded field highMessage high.toNat count] else [])
      (if low.toNat < count then [.exceeded field lowMessage low.toNat count] else []) := by
  rw [UInt64.le_iff_toNat_le] at raised
  by_cases above : high.toNat < count
  · rw [if_pos above, if_pos (Nat.lt_of_le_of_lt raised above)]
    exact List.Sublist.refl _
  · rw [if_neg above]
    exact List.nil_sublist _

theorem eases_maxLength {low high : UInt64} (raised : low ≤ high) (field what value : String) :
    Eases (maxLength field what value high) (maxLength field what value low) :=
  eases_exceeded raised field _ _ value.length

theorem eases_maxItems {low high : UInt64} (raised : low ≤ high) (field what : String)
    (count : Nat) : Eases (maxItems field what count high) (maxItems field what count low) :=
  eases_exceeded raised field _ _ count

theorem eases_maxOnScreen {low high : UInt64} (raised : low ≤ high) (what : String) (count : Nat) :
    Eases (maxOnScreen what count high) (maxOnScreen what count low) :=
  eases_exceeded raised "elements" _ _ count

theorem eases_screenCount {low high : Limits} (raised : low.Raised high) (count : Nat) :
    Eases (screenCount high count) (screenCount low count) :=
  eases_exceeded raised.screensPerDocument "screens" _ _ count

theorem eases_requiredText {low high : UInt64} (raised : low ≤ high)
    (field what value : String) :
    Eases (requiredText field what value high) (requiredText field what value low) := by
  unfold requiredText
  cases required field what value with
  | nil => exact eases_maxLength raised field what value
  | cons f fs => exact .refl _

/-- That a caption is close to its limit is no error. -/
theorem erasedErrors_captionText (limits : Limits) (text : String) :
    erasedErrors (captionText limits text) =
      erasedErrors (requiredText "text" "Text" text limits.captionText) := by
  unfold captionText
  cases requiredText "text" "Text" text limits.captionText with
  | nil =>
      by_cases close : limits.captionWarningThreshold.toNat < text.length
      · simp [close, erasedErrors]
      · simp [close]
  | cons f fs => rfl

/-- That a screen is close to its limit is no error. -/
theorem erasedErrors_componentCount (limits : Limits) (count : Nat) :
    erasedErrors (componentCount limits count) =
      erasedErrors (maxOnScreen "components" count limits.componentsPerScreen) := by
  unfold componentCount
  cases maxOnScreen "components" count limits.componentsPerScreen with
  | nil =>
      by_cases close : limits.componentsWarningThreshold.toNat < count
      · simp [close, erasedErrors]
      · simp [close]
  | cons f fs => rfl

section Raised

variable {low high : Limits} (raised : low.Raised high)

include raised

theorem eases_captionText (text : String) :
    Eases (captionText high text) (captionText low text) := by
  rw [Eases, erasedErrors_captionText, erasedErrors_captionText]
  exact eases_requiredText raised.captionText "text" "Text" text

theorem eases_componentCount (count : Nat) :
    Eases (componentCount high count) (componentCount low count) := by
  rw [Eases, erasedErrors_componentCount, erasedErrors_componentCount]
  exact eases_maxOnScreen raised.componentsPerScreen "components" count

theorem eases_inputIdentity (label name : String) :
    Eases (inputIdentity high label name) (inputIdentity low label name) :=
  (eases_requiredText raised.inputLabel "label" "Label" label).append (.refl _)

theorem eases_helperText (text : Option String) :
    Eases (helperText high text) (helperText low text) := by
  cases text with
  | none => exact .refl _
  | some text => exact eases_maxLength raised.helperText "helperText" "Helper text" text

/-! ## Elements, screens and documents -/

theorem eases_widgetFindings (w : Widget) :
    Eases (widgetFindings high w) (widgetFindings low w) := by
  cases w with
  | heading level attrs => exact eases_requiredText raised.headingText _ _ _
  | body level attrs =>
      cases level with
      | body => exact eases_requiredText raised.bodyText _ _ _
      | caption => exact eases_captionText raised _
  | richText attrs => exact eases_requiredText raised.richText _ _ _
  | textInput kind attrs =>
      exact (eases_inputIdentity raised _ _).append (eases_helperText raised _)
  | textArea attrs => exact (eases_inputIdentity raised _ _).append (eases_helperText raised _)
  | selector kind attrs =>
      exact ((eases_inputIdentity raised _ _).append (.refl _)).append (.refl _)
  | embeddedLink attrs =>
      exact (eases_requiredText raised.embeddedLinkText _ _ _).append (.refl _)
  | datePicker attrs =>
      exact ((eases_inputIdentity raised _ _).append (eases_helperText raised _)).append (.refl _)
  | calendarPicker attrs =>
      exact ((eases_inputIdentity raised _ _).append (eases_helperText raised _)).append (.refl _)
  | photoPicker attrs => exact eases_inputIdentity raised _ _
  | documentPicker attrs => exact eases_inputIdentity raised _ _
  | navigationList attrs =>
      have items := eases_maxItems raised.navigationListItems "items" "Navigation list"
        attrs.items.length
      exact (((Eases.refl _).append items).append (.refl _)).append (.refl _)
  -- These have no attribute that is measured.
  | optIn attrs => exact .refl _
  | image attrs => exact .refl _
  | imageCarousel attrs => exact .refl _
  | footer attrs => exact .refl _

theorem eases_ownFindings (e : Element) : Eases (ownFindings high e) (ownFindings low e) := by
  cases e with
  | widget w => exact eases_widgetFindings raised w
  | ifBlock condition thenBranch elseBranch => exact .refl _
  | switchBlock value cases => exact .refl _

theorem eases_screenFindings (s : Screen) :
    Eases (screenFindings high s) (screenFindings low s) :=
  (((eases_componentCount raised _).append
    (eases_maxOnScreen raised.formComponentsPerScreen "form components" _)).append
    (eases_maxOnScreen raised.embeddedLinksPerScreen "embedded links" _)).append
    (eases_maxOnScreen raised.footersPerScreen "footers" _)

theorem eases_documentFindings (screens : List Screen) :
    Eases (documentFindings high screens) (documentFindings low screens) :=
  ((eases_screenCount raised _).append (.refl _)).append (.refl _)

end Raised

/-! ## Whole reports -/

/-- Without messages the places of elements do not matter, only their order. -/
theorem map_erased_elementwise (limits : Limits) (s : Screen) :
    (elementwise limits .error s).map Finding.erased =
      s.elements.flatMap fun e => e.walk.flatMap fun inner =>
        erasedErrors (ownFindings limits inner) := by
  have alone (inner : Element) (place : String) :
      (((checkElement limits (fun _ => .empty) inner).filed .error).map
        (Finding.inContext place)).map Finding.erased =
          erasedErrors (ownFindings limits inner) := by
    rw [checkElement_empty, Report.ofFindings, Report.filed_pushAll, List.map_map]
    rfl
  have inside (e : Element) (place : String) :
      (e.placed.flatMap fun p => ((checkElement limits (fun _ => .empty) p.2).filed .error).map
        (Finding.inContext (place ++ pathPlace p.1))).map Finding.erased =
          e.walk.flatMap fun inner => erasedErrors (ownFindings limits inner) := by
    rw [List.map_flatMap, ← Element.map_snd_placed, List.flatMap_map]
    exact List.flatMap_congr fun p _ => alone p.2 _
  rw [elementwise_eq, List.map_flatMap, ← List.zipIdx_map_fst 1 s.elements, List.flatMap_map]
  simp only [inside, List.zipIdx_map_fst]

/-- The errors on a document without messages and limits: for each screen those on its elements and
on their numbers, then those on the document. -/
theorem map_erased_errors (limits : Limits) (screens : List Screen) :
    (documentReport limits screens).errors.map Finding.erased =
      screens.flatMap (fun s =>
        (s.elements.flatMap fun e => e.walk.flatMap fun inner =>
          erasedErrors (ownFindings limits inner)) ++
        erasedErrors (screenFindings limits s)) ++
      erasedErrors (documentFindings limits screens) := by
  have errors := filed_documentReport limits screens .error
  have counts (s : Screen) :
      ((countFindings limits s .error).map (Finding.inContext (screenPlace s.title))).map
        Finding.erased = erasedErrors (screenFindings limits s) := by
    rw [← filter_screenFindings, List.map_map]
    rfl
  rw [show (documentReport limits screens).errors = _ from errors, List.map_append,
    List.map_flatMap]
  simp only [List.map_append, map_erased_elementwise, counts]
  rfl

/-- Raising limits leaves of the errors on a document, but for messages and limits, a part in the
same order, and a document without errors stays one without. -/
theorem errors_sublist_of_raised {low high : Limits} (raised : low.Raised high)
    (screens : List Screen) :
    ((documentReport high screens).errors.map Finding.erased).Sublist
      ((documentReport low screens).errors.map Finding.erased) ∧
    ((documentReport low screens).isValid = true →
      (documentReport high screens).isValid = true) := by
  have errors : ((documentReport high screens).errors.map Finding.erased).Sublist
      ((documentReport low screens).errors.map Finding.erased) := by
    rw [map_erased_errors, map_erased_errors]
    refine List.Sublist.append (List.Sublist.flatMap_right screens fun s _ => ?_)
      (eases_documentFindings raised screens)
    refine List.Sublist.append (List.Sublist.flatMap_right s.elements fun e _ => ?_)
      (eases_screenFindings raised s)
    exact List.Sublist.flatMap_right e.walk fun inner _ => eases_ownFindings raised inner
  refine ⟨errors, fun valid => ?_⟩
  rw [Report.isValid, List.isEmpty_iff] at valid ⊢
  rw [valid, List.map_nil, List.sublist_nil, List.map_eq_nil_iff] at errors
  exact errors

/-- A screen with a caption of twelve characters in a case. -/
def nestedCaption : List Screen := [
  ⟨"START", "Start", [.switchBlock "${data.kind}" [
    ("short", [.widget (.body .caption ⟨"twelve chars", none, none, none, none⟩)])]]⟩]

/-- Limits that leave captions so many characters and never warn of them. -/
def captionLimits (characters : UInt64) : Limits :=
  { Limits.default with captionText := characters, captionWarningPercent := 100 }

/-- The caption is an error until it fits, and none from then on. -/
theorem nestedCaption_fits :
    (captionLimits 11).Raised (captionLimits 12) ∧ (captionLimits 12).Raised .default ∧
      ((documentReport (captionLimits 12) nestedCaption).errors.map Finding.erased).Sublist
        ((documentReport (captionLimits 11) nestedCaption).errors.map Finding.erased) ∧
      (documentReport (captionLimits 11) nestedCaption).isValid = false ∧
      (documentReport .default nestedCaption).isValid = true := by
  have wider : (captionLimits 11).Raised (captionLimits 12) := by constructor <;> decide
  have widest : (captionLimits 12).Raised .default := by constructor <;> decide
  exact ⟨wider, widest, (errors_sublist_of_raised wider nestedCaption).1, by decide +kernel,
    (errors_sublist_of_raised widest nestedCaption).2 (by decide +kernel)⟩

end ScreenFlow.Review
