import Mathlib.Data.List.Nodup
import ScreenFlow.Proofs.Review.Produced

/-!
# Measurements

What a review counts is written down here apart from its rules: every element and every screen has
its quantities, each with the limit and perhaps the threshold that it is held against. The findings
with numbers are the outcomes of these measurements, one by one and in their order, so none of them
is above its limit and merely close to it at once. All other findings carry no numbers.
-/

namespace ScreenFlow.Review

open ScreenFlow.Design (Element Screen Widget)

/-! ## Quantities -/

/-- Something that is counted. -/
inductive Quantity where
  /-- The characters of an attribute of an element, or the items in it. -/
  | attribute (field : String)
  | components
  | formComponents
  | embeddedLinks
  | footers
  | screens
  deriving DecidableEq, Repr

/-- The field that findings on a quantity name. -/
def Quantity.field : Quantity → String
  | .attribute field => field
  | .components | .formComponents | .embeddedLinks | .footers => "elements"
  | .screens => "screens"

/-- A quantity as it was found, and what it is held against. -/
structure Measurement where
  quantity : Quantity
  current : Nat
  limit : Nat
  /-- Above this a quantity that keeps its limit is close to it. -/
  threshold : Option Nat
  deriving DecidableEq, Repr

namespace Measurement

/-- The error on a quantity above its limit, without a message. -/
def excess? (m : Measurement) : Option Finding :=
  if m.limit < m.current then some (.exceeded m.quantity.field "" m.limit m.current) else none

/-- The warning on a quantity that keeps its limit and is above the threshold, without a message. -/
def closeness? (m : Measurement) : Option Finding :=
  if m.current ≤ m.limit ∧ ∃ threshold ∈ m.threshold, threshold < m.current then
    some (.approaching m.quantity.field "" m.limit m.current)
  else none

theorem excess?_or_closeness? (m : Measurement) : m.excess? = none ∨ m.closeness? = none := by
  by_cases above : m.limit < m.current
  · exact .inr (if_neg fun close => Nat.not_lt.mpr close.1 above)
  · exact .inl (if_neg above)

end Measurement

/-! ## What is measured -/

/-- The characters of an attribute. -/
def characters (field value : String) (limit : UInt64) : Measurement :=
  ⟨.attribute field, value.length, limit.toNat, none⟩

/-- The characters of a required attribute, which count only when it is there. -/
def requiredCharacters (field value : String) (limit : UInt64) : List Measurement :=
  if Text.isBlank value then [] else [characters field value limit]

/-- The characters of a caption, which has a threshold. -/
def captionCharacters (limits : Limits) (text : String) : List Measurement :=
  if Text.isBlank text then []
  else [{ characters "text" text limits.captionText with
    threshold := some limits.captionWarningThreshold.toNat }]

/-- The characters of a helper text, where there is one. -/
def helperCharacters (limits : Limits) (text : Option String) : List Measurement :=
  text.toList.map fun text => characters "helperText" text limits.helperText

/-- What is measured on a widget. -/
def widgetMeasurements (limits : Limits) : Widget → List Measurement
  | .heading _ attrs => requiredCharacters "text" attrs.text limits.headingText
  | .body .body attrs => requiredCharacters "text" attrs.text limits.bodyText
  | .body .caption attrs => captionCharacters limits attrs.text
  | .richText attrs => requiredCharacters "text" attrs.text limits.richText
  | .textInput _ attrs =>
    requiredCharacters "label" attrs.label limits.inputLabel ++
      helperCharacters limits attrs.helperText
  | .textArea attrs =>
    requiredCharacters "label" attrs.label limits.inputLabel ++
      helperCharacters limits attrs.helperText
  | .selector _ attrs => requiredCharacters "label" attrs.label limits.inputLabel
  | .embeddedLink attrs => requiredCharacters "text" attrs.text limits.embeddedLinkText
  | .datePicker attrs =>
    requiredCharacters "label" attrs.label limits.inputLabel ++
      helperCharacters limits attrs.helperText
  | .calendarPicker attrs =>
    requiredCharacters "label" attrs.label limits.inputLabel ++
      helperCharacters limits attrs.helperText
  | .photoPicker attrs => requiredCharacters "label" attrs.label limits.inputLabel
  | .documentPicker attrs => requiredCharacters "label" attrs.label limits.inputLabel
  | .navigationList attrs =>
    [⟨.attribute "items", attrs.items.length, limits.navigationListItems.toNat, none⟩]
  | .optIn _ | .image _ | .imageCarousel _ | .footer _ => []

/-- What is measured on an element, without its branches. -/
def elementMeasurements (limits : Limits) : Element → List Measurement
  | .widget w => widgetMeasurements limits w
  | .ifBlock _ _ _ | .switchBlock _ _ => []

/-- What is measured on a screen itself. -/
def screenMeasurements (limits : Limits) (s : Screen) : List Measurement := [
  ⟨.components, s.elements.length, limits.componentsPerScreen.toNat,
    some limits.componentsWarningThreshold.toNat⟩,
  ⟨.formComponents, s.elements.countP Element.isFormClass,
    limits.formComponentsPerScreen.toNat, none⟩,
  ⟨.embeddedLinks, s.elements.countP Element.isEmbeddedLink,
    limits.embeddedLinksPerScreen.toNat, none⟩,
  ⟨.footers, s.elements.countP Element.isFooter, limits.footersPerScreen.toNat, none⟩]

/-- What is measured on a document: on every element in the order of the walk and on every screen,
and then the number of screens. -/
def documentMeasurements (limits : Limits) (screens : List Screen) : List Measurement :=
  screens.flatMap (fun s =>
    s.walk.flatMap (elementMeasurements limits) ++ screenMeasurements limits s) ++
    [⟨.screens, screens.length, limits.screensPerDocument.toNat, none⟩]

/-- No quantity of a screen is measured twice. -/
theorem nodup_screenMeasurements (limits : Limits) (s : Screen) :
    ((screenMeasurements limits s).map Measurement.quantity).Nodup := by
  simp [screenMeasurements]

/-- No quantity of an element is measured twice. -/
theorem nodup_elementMeasurements (limits : Limits) (e : Element) :
    ((elementMeasurements limits e).map Measurement.quantity).Nodup := by
  have single (field value : String) (limit : UInt64) :
      ((requiredCharacters field value limit).map Measurement.quantity).Sublist
        [.attribute field] := by
    rw [requiredCharacters]
    split
    · exact List.nil_sublist _
    · exact List.Sublist.refl _
  have helper (text : Option String) :
      ((helperCharacters limits text).map Measurement.quantity).Sublist
        [.attribute "helperText"] := by
    cases text with
    | none => exact List.nil_sublist _
    | some text => exact List.Sublist.refl _
  have both (label : String) (text : Option String) :
      ((requiredCharacters "label" label limits.inputLabel ++
        helperCharacters limits text).map Measurement.quantity).Nodup := by
    rw [List.map_append]
    exact ((single _ _ _).append (helper text)).nodup (by decide)
  cases e with
  | widget w =>
      cases w with
      | body level attrs =>
          cases level with
          | body => exact (single _ _ _).nodup (List.pairwise_singleton _ _)
          | caption =>
              show ((captionCharacters limits attrs.text).map Measurement.quantity).Nodup
              rw [captionCharacters]
              split <;> simp
      | heading | richText | selector | embeddedLink | photoPicker | documentPicker =>
          exact (single _ _ _).nodup (List.pairwise_singleton _ _)
      | textInput | textArea | datePicker | calendarPicker => exact both _ _
      | navigationList => exact List.pairwise_singleton _ _
      | optIn | image | imageCarousel | footer => exact List.nodup_nil
  | ifBlock | switchBlock => exact List.nodup_nil

/-- Of all quantities of elements only the characters of captions have a threshold. -/
theorem threshold_of_mem_elementMeasurements {limits : Limits} {e : Element} {m : Measurement}
    (among : m ∈ elementMeasurements limits e) {threshold : Nat} (held : threshold ∈ m.threshold) :
    m.quantity = .attribute "text" ∧ m.limit = limits.captionText.toNat ∧
      threshold = limits.captionWarningThreshold.toNat := by
  have required {field value : String} {limit : UInt64}
      (among : m ∈ requiredCharacters field value limit) : m.threshold = none := by
    rw [requiredCharacters] at among
    split at among
    · cases among
    · rw [List.mem_singleton.mp among, characters]
  have helper {text : Option String} (among : m ∈ helperCharacters limits text) :
      m.threshold = none := by
    obtain ⟨text, -, rfl⟩ := List.mem_map.mp among
    rfl
  have free (none : m.threshold = none) : False := by
    rw [none] at held
    cases held
  cases e with
  | widget w =>
      cases w with
      | body level attrs =>
          cases level with
          | body => exact (free (required among)).elim
          | caption =>
              change m ∈ captionCharacters limits attrs.text at among
              rw [captionCharacters] at among
              split at among
              · cases among
              · rw [List.mem_singleton.mp among] at held ⊢
                exact ⟨rfl, rfl, (Option.mem_some_iff.mp held).symm⟩
      | heading | richText | selector | embeddedLink | photoPicker | documentPicker =>
          exact (free (required among)).elim
      | textInput | textArea | datePicker | calendarPicker =>
          exact ((List.mem_append.mp among).elim (free ∘ required) (free ∘ helper)).elim
      | navigationList attrs =>
          rw [List.mem_singleton.mp among] at held
          cases held
      | optIn | image | imageCarousel | footer => cases among
  | ifBlock | switchBlock => cases among

/-- Of all quantities of a document only the characters of captions and the components of screens
have a threshold. -/
theorem threshold_of_mem_documentMeasurements {limits : Limits} {screens : List Screen}
    {m : Measurement} (among : m ∈ documentMeasurements limits screens) {threshold : Nat}
    (held : threshold ∈ m.threshold) :
    (m.quantity = .attribute "text" ∧ m.limit = limits.captionText.toNat ∧
      threshold = limits.captionWarningThreshold.toNat) ∨
    (m.quantity = .components ∧ m.limit = limits.componentsPerScreen.toNat ∧
      threshold = limits.componentsWarningThreshold.toNat) := by
  rw [documentMeasurements, List.mem_append, List.mem_flatMap, List.mem_singleton] at among
  rcases among with ⟨s, -, onScreen⟩ | rfl
  · rcases List.mem_append.mp onScreen with onElement | onNumbers
    · obtain ⟨e, -, own⟩ := List.mem_flatMap.mp onElement
      exact .inl (threshold_of_mem_elementMeasurements own held)
    · simp only [screenMeasurements, List.mem_cons, List.not_mem_nil, or_false] at onNumbers
      rcases onNumbers with rfl | rfl | rfl | rfl
      · exact .inr ⟨rfl, rfl, (Option.mem_some_iff.mp held).symm⟩
      all_goals cases held
  · cases held

/-! ## Findings on measurements -/

/-- A finding without its message. -/
def Finding.unworded (f : Finding) : Finding := { f with message := "" }

@[simp]
theorem unworded_inContext (context : String) (f : Finding) :
    (f.inContext context).unworded = f.unworded := rfl

/-- Something required is missing: a field is named, and nothing is measured. -/
structure Finding.IsMissing (f : Finding) : Prop where
  code : f.code = .missingRequiredField
  named : f.field.isSome = true
  unlimited : f.limit = none
  uncounted : f.current = none

/-- Findings are the outcomes of measurements, in their order, and otherwise about what is
missing. -/
structure Judges (fs : List Finding) (ms : List Measurement) : Prop where
  excesses : (fs.filter fun f => f.code = .limitExceeded).map Finding.unworded =
    ms.filterMap Measurement.excess?
  closenesses : (fs.filter fun f => f.code = .approachingLimit).map Finding.unworded =
    ms.filterMap Measurement.closeness?
  others : ∀ f ∈ fs, f.code ≠ .limitExceeded → f.code ≠ .approachingLimit → f.IsMissing

namespace Judges

theorem nil : Judges [] [] := ⟨rfl, rfl, List.forall_mem_nil _⟩

theorem append {fs gs : List Finding} {ms ns : List Measurement} (first : Judges fs ms)
    (second : Judges gs ns) : Judges (fs ++ gs) (ms ++ ns) where
  excesses := by
    rw [List.filter_append, List.map_append, first.excesses, second.excesses, List.filterMap_append]
  closenesses := by
    rw [List.filter_append, List.map_append, first.closenesses, second.closenesses,
      List.filterMap_append]
  others := List.forall_mem_append.mpr ⟨first.others, second.others⟩

/-- Rules that measure nothing may follow. -/
theorem besides {fs gs : List Finding} {ms : List Measurement} (first : Judges fs ms)
    (second : Judges gs []) : Judges (fs ++ gs) ms :=
  List.append_nil ms ▸ first.append second

theorem flatMap {α : Type} {fs : α → List Finding} {ms : α → List Measurement} {as : List α}
    (each : ∀ a ∈ as, Judges (fs a) (ms a)) : Judges (as.flatMap fs) (as.flatMap ms) := by
  induction as with
  | nil => exact nil
  | cons a as ih =>
      obtain ⟨first, others⟩ := List.forall_mem_cons.mp each
      exact first.append (ih others)

theorem inContext {fs : List Finding} {ms : List Measurement} (judges : Judges fs ms)
    (context : String) : Judges (fs.map (Finding.inContext context)) ms where
  excesses := by
    rw [List.filter_map, List.map_map]
    exact judges.excesses
  closenesses := by
    rw [List.filter_map, List.map_map]
    exact judges.closenesses
  others := by
    rw [List.forall_mem_map]
    intro f member exceeded approaching
    obtain ⟨code, named, unlimited, uncounted⟩ := judges.others f member exceeded approaching
    exact ⟨code, named, unlimited, uncounted⟩

/-- A rule that asks for something measures nothing. -/
theorem missing (field message : String) : Judges [.missing field message] [] := by
  refine ⟨rfl, rfl, ?_⟩
  intro f member _ _
  rw [List.mem_singleton.mp member]
  exact ⟨rfl, rfl, rfl, rfl⟩

/-- A quantity above its limit. -/
theorem exceeded {m : Measurement} (above : m.limit < m.current) (message : String) :
    Judges [.exceeded m.quantity.field message m.limit m.current] [m] := by
  have excess : m.excess? = some (.exceeded m.quantity.field "" m.limit m.current) := if_pos above
  have notClose : m.closeness? = none := if_neg fun close => Nat.not_lt.mpr close.1 above
  refine ⟨?_, ?_, ?_⟩
  · rw [List.filterMap_cons, excess]
    rfl
  · rw [List.filterMap_cons, notClose]
    rfl
  · intro f member notExceeded _
    rw [List.mem_singleton.mp member] at notExceeded
    exact absurd rfl notExceeded

/-- A quantity that keeps its limit and is above its threshold. -/
theorem approaching {m : Measurement} (within : m.current ≤ m.limit)
    (close : ∃ threshold ∈ m.threshold, threshold < m.current) (message : String) :
    Judges [.approaching m.quantity.field message m.limit m.current] [m] := by
  have noExcess : m.excess? = none := if_neg (Nat.not_lt.mpr within)
  have closeness : m.closeness? = some (.approaching m.quantity.field "" m.limit m.current) :=
    if_pos ⟨within, close⟩
  refine ⟨?_, ?_, ?_⟩
  · rw [List.filterMap_cons, noExcess]
    rfl
  · rw [List.filterMap_cons, closeness]
    rfl
  · intro f member _ notApproaching
    rw [List.mem_singleton.mp member] at notApproaching
    exact absurd rfl notApproaching

/-- A quantity that nothing is said of. -/
theorem silent {m : Measurement} (within : m.current ≤ m.limit)
    (apart : ¬∃ threshold ∈ m.threshold, threshold < m.current) : Judges [] [m] := by
  have noExcess : m.excess? = none := if_neg (Nat.not_lt.mpr within)
  have notClose : m.closeness? = none := if_neg fun close => apart close.2
  refine ⟨?_, ?_, List.forall_mem_nil _⟩
  · rw [List.filterMap_cons, noExcess]
    rfl
  · rw [List.filterMap_cons, notClose]
    rfl

/-- A rule with a limit alone judges a quantity without a threshold. -/
theorem ofLimit {m : Measurement} (free : m.threshold = none) (message : String) :
    Judges (if m.limit < m.current then [.exceeded m.quantity.field message m.limit m.current]
      else []) [m] := by
  by_cases above : m.limit < m.current
  · rw [if_pos above]
    exact exceeded above message
  · rw [if_neg above]
    exact silent (Nat.not_lt.mp above) (by simp [free])

/-- A rule that looks at the threshold once the limit is kept judges a quantity that has both. -/
theorem ofThreshold {m : Measurement} {threshold : Nat} (held : m.threshold = some threshold)
    (exceeding approaching' : String) :
    Judges (match (if m.limit < m.current then
        [.exceeded m.quantity.field exceeding m.limit m.current] else []) with
      | [] => if threshold < m.current then
          [.approaching m.quantity.field approaching' m.limit m.current] else []
      | findings => findings) [m] := by
  by_cases above : m.limit < m.current
  · rw [if_pos above]
    exact exceeded above exceeding
  · have within : m.current ≤ m.limit := Nat.not_lt.mp above
    rw [if_neg above]
    by_cases close : threshold < m.current
    · simp only [if_pos close]
      exact approaching within ⟨threshold, held, close⟩ approaching'
    · simp only [if_neg close]
      exact silent within (by simpa [held] using close)

end Judges

/-! ## Rules -/

theorem judges_required (field what value : String) : Judges (required field what value) [] := by
  rw [required]
  split
  · exact .missing field _
  · exact .nil

theorem judges_maxLength (field what value : String) (limit : UInt64) :
    Judges (maxLength field what value limit) [characters field value limit] :=
  Judges.ofLimit (m := characters field value limit) rfl _

theorem judges_requiredText (field what value : String) (limit : UInt64) :
    Judges (requiredText field what value limit) (requiredCharacters field value limit) := by
  rw [requiredText, requiredCharacters, required]
  cases Text.isBlank value with
  | true => exact .missing field _
  | false => exact judges_maxLength field what value limit

theorem judges_captionText (limits : Limits) (text : String) :
    Judges (captionText limits text) (captionCharacters limits text) := by
  rw [captionText, requiredText, captionCharacters, required]
  cases Text.isBlank text with
  | true => exact .missing "text" _
  | false =>
      exact Judges.ofThreshold (m := { characters "text" text limits.captionText with
        threshold := some limits.captionWarningThreshold.toNat }) rfl _ _

theorem judges_helperText (limits : Limits) (text : Option String) :
    Judges (helperText limits text) (helperCharacters limits text) := by
  cases text with
  | none => exact .nil
  | some text => exact judges_maxLength "helperText" "Helper text" text limits.helperText

theorem judges_inputIdentity (limits : Limits) (label name : String) :
    Judges (inputIdentity limits label name)
      (requiredCharacters "label" label limits.inputLabel) :=
  (judges_requiredText "label" "Label" label limits.inputLabel).besides
    (judges_required "name" "Name" name)

theorem judges_actionTarget (field : String) (action : Option Design.Action) :
    Judges (actionTarget field action) [] := by
  cases action with
  | none => exact .nil
  | some action =>
      rw [actionTarget]
      split
      · exact .missing field _
      · exact .nil

theorem judges_requiredAction (field : String) (action : Option Design.Action) :
    Judges (requiredAction field action) [] := by
  cases action with
  | none => exact .missing field _
  | some action => exact judges_actionTarget field (some action)

theorem judges_selectorOptions (source : DataSource) : Judges (selectorOptions source) [] := by
  rw [selectorOptions]
  split
  · exact .missing "dataSource" _
  · exact .nil

theorem judges_widgetFindings (limits : Limits) (w : Widget) :
    Judges (widgetFindings limits w) (widgetMeasurements limits w) := by
  have helped (label name : String) (text : Option String) :
      Judges (inputIdentity limits label name ++ helperText limits text)
        (requiredCharacters "label" label limits.inputLabel ++ helperCharacters limits text) :=
    (judges_inputIdentity limits label name).append (judges_helperText limits text)
  cases w with
  | heading | richText => exact judges_requiredText _ _ _ _
  | body level attrs =>
      cases level with
      | body => exact judges_requiredText _ _ _ _
      | caption => exact judges_captionText limits attrs.text
  | textInput | textArea => exact helped _ _ _
  | selector =>
      exact ((judges_inputIdentity limits _ _).besides (judges_selectorOptions _)).besides
        (judges_actionTarget _ _)
  | embeddedLink => exact (judges_requiredText _ _ _ _).besides (judges_requiredAction _ _)
  | datePicker | calendarPicker => exact (helped _ _ _).besides (judges_actionTarget _ _)
  | photoPicker | documentPicker => exact judges_inputIdentity limits _ _
  | navigationList attrs =>
      have items : Judges (maxItems "items" "Navigation list" attrs.items.length
          limits.navigationListItems)
          [⟨.attribute "items", attrs.items.length, limits.navigationListItems.toNat, none⟩] :=
        Judges.ofLimit (m := ⟨.attribute "items", attrs.items.length, _, none⟩) rfl _
      have actions : Judges (attrs.items.flatMap fun item =>
          actionTarget "items.onClickAction" item.onClickAction) [] := by
        have each : ∀ item ∈ attrs.items,
            Judges (actionTarget "items.onClickAction" item.onClickAction) [] :=
          fun item _ => judges_actionTarget _ _
        have all := Judges.flatMap each
        rwa [List.flatMap_eq_nil_iff.mpr fun _ _ => rfl] at all
      exact (((judges_required "name" "Name" attrs.name).append items).besides actions).besides
        (judges_actionTarget _ _)
  | optIn =>
      exact ((judges_required _ _ _).besides (judges_required _ _ _)).besides
        (judges_actionTarget _ _)
  | image => exact judges_required _ _ _
  | imageCarousel attrs =>
      show Judges (if attrs.images.isEmpty then _ else []) []
      split
      · exact .missing "images" _
      · exact .nil
  | footer => exact (judges_required _ _ _).besides (judges_requiredAction _ _)

/-- An empty branch is a warning on what is missing, and its condition is still asked for. -/
theorem judges_ownFindings (limits : Limits) (e : Element) :
    Judges (ownFindings limits e) (elementMeasurements limits e) := by
  cases e with
  | widget w => exact judges_widgetFindings limits w
  | ifBlock condition thenBranch elseBranch =>
      refine (judges_required "condition" "Condition" condition).besides ?_
      split
      · refine ⟨rfl, rfl, ?_⟩
        intro f member _ _
        rw [List.mem_singleton.mp member]
        exact ⟨rfl, rfl, rfl, rfl⟩
      · exact .nil
  | switchBlock value cases =>
      refine (judges_required "value" "Value" value).besides ?_
      split
      · exact .missing "cases" _
      · exact .nil

theorem judges_componentCount (limits : Limits) (count : Nat) :
    Judges (componentCount limits count) [⟨.components, count, limits.componentsPerScreen.toNat,
      some limits.componentsWarningThreshold.toNat⟩] :=
  Judges.ofThreshold (m := ⟨.components, count, limits.componentsPerScreen.toNat,
    some limits.componentsWarningThreshold.toNat⟩) rfl _ _

theorem judges_maxOnScreen {quantity : Quantity} (field : quantity.field = "elements")
    (what : String) (count : Nat) (limit : UInt64) :
    Judges (maxOnScreen what count limit) [⟨quantity, count, limit.toNat, none⟩] := by
  rw [maxOnScreen, ← field]
  exact Judges.ofLimit (m := ⟨quantity, count, limit.toNat, none⟩) rfl _

theorem judges_screenFindings (limits : Limits) (s : Screen) :
    Judges (screenFindings limits s) (screenMeasurements limits s) :=
  (((judges_componentCount limits _).append (judges_maxOnScreen rfl "form components" _ _)).append
    (judges_maxOnScreen rfl "embedded links" _ _)).append (judges_maxOnScreen rfl "footers" _ _)

/-! ## Findings with numbers -/

namespace Judges

variable {fs : List Finding} {ms : List Measurement} (judges : Judges fs ms) {f : Finding}
  (member : f ∈ fs)

include judges member

theorem exists_excess (code : f.code = .limitExceeded) :
    ∃ m ∈ ms, m.limit < m.current ∧
      f.unworded = .exceeded m.quantity.field "" m.limit m.current := by
  have among : f.unworded ∈ ms.filterMap Measurement.excess? := by
    rw [← judges.excesses]
    exact List.mem_map_of_mem (List.mem_filter.mpr ⟨member, decide_eq_true code⟩)
  obtain ⟨m, measured, outcome⟩ := List.mem_filterMap.mp among
  obtain ⟨above, same⟩ := Option.ite_none_right_eq_some.mp outcome
  exact ⟨m, measured, above, (Option.some.inj same).symm⟩

theorem exists_closeness (code : f.code = .approachingLimit) :
    ∃ m ∈ ms, (m.current ≤ m.limit ∧ ∃ threshold ∈ m.threshold, threshold < m.current) ∧
      f.unworded = .approaching m.quantity.field "" m.limit m.current := by
  have among : f.unworded ∈ ms.filterMap Measurement.closeness? := by
    rw [← judges.closenesses]
    exact List.mem_map_of_mem (List.mem_filter.mpr ⟨member, decide_eq_true code⟩)
  obtain ⟨m, measured, outcome⟩ := List.mem_filterMap.mp among
  obtain ⟨close, same⟩ := Option.ite_none_right_eq_some.mp outcome
  exact ⟨m, measured, close, (Option.some.inj same).symm⟩

end Judges

/-- What is above its limit and what is close to it are different quantities. -/
def Apart (fs : List Finding) (ms : List Measurement) : Prop :=
  ∀ f ∈ fs, ∀ g ∈ fs, f.code = .limitExceeded → g.code = .approachingLimit →
    ∃ m ∈ ms, ∃ n ∈ ms, m.quantity ≠ n.quantity ∧
      m.excess? = some f.unworded ∧ n.closeness? = some g.unworded

/-- A quantity that is measured once has one outcome at most. -/
theorem Judges.apart {fs : List Finding} {ms : List Measurement} (judges : Judges fs ms)
    (once : (ms.map Measurement.quantity).Nodup) : Apart fs ms := by
  intro f member g member' exceeded approaching
  obtain ⟨m, measured, above, outcome⟩ := judges.exists_excess member exceeded
  obtain ⟨n, measured', close, outcome'⟩ := judges.exists_closeness member' approaching
  refine ⟨m, measured, n, measured', ?_, ?_, ?_⟩
  · intro same
    obtain rfl : m = n := List.inj_on_of_nodup_map once measured measured' same
    exact Nat.not_lt.mpr close.1 above
  · rw [Measurement.excess?, if_pos above, outcome]
  · rw [Measurement.closeness?, if_pos close, outcome']

end ScreenFlow.Review
