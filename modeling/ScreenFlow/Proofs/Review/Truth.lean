import ScreenFlow.Proofs.Review.Measurements

/-!
# Truthful reports

Whatever a review reports, from whatever depth, can be taken at its word. A finding is filed by its
severity and names a field; its code says whether it carries numbers, and those are the ones that
were measured and bear the finding out.
-/

namespace ScreenFlow.Review

open ScreenFlow.Design (Element Screen)

/-! ## What a finding says -/

/-- A finding says what is the case under its limits: it names a field, and it has numbers exactly
when it is about a limit, which they bear out. -/
structure Finding.IsTruthful (limits : Limits) (f : Finding) : Prop where
  named : f.field.isSome = true
  exceeded : f.code = .limitExceeded →
    f.kind = .error ∧ ∃ limit current, f.limit = some limit ∧ f.current = some current ∧
      limit < current
  approaching : f.code = .approachingLimit →
    f.kind = .warning ∧ ∃ limit current, f.limit = some limit ∧ f.current = some current ∧
      current ≤ limit ∧
      ((f.field = some "text" ∧ limit = limits.captionText.toNat ∧
          limits.captionWarningThreshold.toNat < current) ∨
        (f.field = some "elements" ∧ limit = limits.componentsPerScreen.toNat ∧
          limits.componentsWarningThreshold.toNat < current))
  uncounted : f.code = .missingRequiredField ∨ f.code = .invalidReference →
    f.limit = none ∧ f.current = none
  reference : f.code = .invalidReference → f.kind = .error

/-- A reference that leads nowhere or is not unique: an error on a field, without numbers. -/
structure Finding.IsReference (f : Finding) : Prop where
  code : f.code = .invalidReference
  kind : f.kind = .error
  named : f.field.isSome = true
  unlimited : f.limit = none
  uncounted : f.current = none

section Truth

variable {limits : Limits} {f : Finding}

theorem Finding.IsMissing.isTruthful (missing : f.IsMissing) : f.IsTruthful limits where
  named := missing.named
  exceeded code := by simp [missing.code] at code
  approaching code := by simp [missing.code] at code
  uncounted _ := ⟨missing.unlimited, missing.uncounted⟩
  reference code := by simp [missing.code] at code

theorem Finding.IsReference.isTruthful (reference : f.IsReference) : f.IsTruthful limits where
  named := reference.named
  exceeded code := by simp [reference.code] at code
  approaching code := by simp [reference.code] at code
  uncounted _ := ⟨reference.unlimited, reference.uncounted⟩
  reference _ := reference.kind

/-- The outcome of a measurement above its limit. -/
theorem isTruthful_of_excess {m : Measurement} (above : m.limit < m.current)
    (outcome : f.unworded = .exceeded m.quantity.field "" m.limit m.current) :
    f.IsTruthful limits := by
  have code : f.code = .limitExceeded := congrArg Finding.code outcome
  have field : f.field = some m.quantity.field := congrArg Finding.field outcome
  exact {
    named := by rw [field]; rfl
    exceeded := fun _ => ⟨congrArg Finding.kind outcome, m.limit, m.current,
      congrArg Finding.limit outcome, congrArg Finding.current outcome, above⟩
    approaching := fun other => by simp [code] at other
    uncounted := fun other => by simp [code] at other
    reference := fun other => by simp [code] at other }

/-- The outcome of a measurement above one of the two thresholds. -/
theorem isTruthful_of_closeness {screens : List Screen} {m : Measurement}
    (among : m ∈ documentMeasurements limits screens) (within : m.current ≤ m.limit)
    (close : ∃ threshold ∈ m.threshold, threshold < m.current)
    (outcome : f.unworded = .approaching m.quantity.field "" m.limit m.current) :
    f.IsTruthful limits := by
  have code : f.code = .approachingLimit := congrArg Finding.code outcome
  have field : f.field = some m.quantity.field := congrArg Finding.field outcome
  obtain ⟨threshold, held, above⟩ := close
  have matching : (f.field = some "text" ∧ m.limit = limits.captionText.toNat ∧
        limits.captionWarningThreshold.toNat < m.current) ∨
      (f.field = some "elements" ∧ m.limit = limits.componentsPerScreen.toNat ∧
        limits.componentsWarningThreshold.toNat < m.current) := by
    rcases threshold_of_mem_documentMeasurements among held with
      ⟨caption, limit, rfl⟩ | ⟨components, limit, rfl⟩
    · exact .inl ⟨by rw [field, caption]; rfl, limit, above⟩
    · exact .inr ⟨by rw [field, components]; rfl, limit, above⟩
  exact {
    named := by rw [field]; rfl
    exceeded := fun other => by simp [code] at other
    approaching := fun _ => ⟨congrArg Finding.kind outcome, m.limit, m.current,
      congrArg Finding.limit outcome, congrArg Finding.current outcome, within, matching⟩
    uncounted := fun other => by simp [code] at other
    reference := fun other => by simp [code] at other }

end Truth

/-! ## All findings on a document -/

/-- The findings on the elements and the screens of a document and on the number of screens. -/
def measuredFindings (limits : Limits) (screens : List Screen) : List Finding :=
  screens.flatMap (fun s =>
    (producedByScreen limits s).map (Finding.inContext (screenPlace s.title))) ++
    screenCount limits screens.length

/-- The findings on the ids of a document and on the targets in it. -/
def referenceFindings (screens : List Screen) : List Finding :=
  repeatedIds screens ++ screens.flatMap (missingTargets (screens.map Screen.id))

theorem producedByDocument_eq (limits : Limits) (screens : List Screen) :
    producedByDocument limits screens =
      measuredFindings limits screens ++ referenceFindings screens := by
  rw [producedByDocument, documentFindings, measuredFindings, referenceFindings,
    List.append_assoc, List.append_assoc]

/-- The findings that are no references judge the measurements of the document. -/
theorem judges_measuredFindings (limits : Limits) (screens : List Screen) :
    Judges (measuredFindings limits screens) (documentMeasurements limits screens) := by
  have onElement (e : Element) :
      Judges (producedByElement limits e) (e.walk.flatMap (elementMeasurements limits)) := by
    rw [← Element.map_snd_placed, List.flatMap_map]
    exact .flatMap fun p _ => (judges_ownFindings limits p.2).inContext _
  have onScreen (s : Screen) : Judges (producedByScreen limits s)
      (s.walk.flatMap (elementMeasurements limits) ++ screenMeasurements limits s) := by
    have elements : Judges ((s.elements.zipIdx 1).flatMap fun c =>
        (producedByElement limits c.1).map (Finding.inContext (componentPlace c.2)))
        (s.walk.flatMap (elementMeasurements limits)) := by
      have counted : s.walk.flatMap (elementMeasurements limits) =
          (s.elements.zipIdx 1).flatMap fun c => c.1.walk.flatMap (elementMeasurements limits) :=
        calc s.walk.flatMap (elementMeasurements limits)
            = s.elements.flatMap fun e => e.walk.flatMap (elementMeasurements limits) :=
              List.flatMap_assoc
          _ = ((s.elements.zipIdx 1).map Prod.fst).flatMap fun e =>
                e.walk.flatMap (elementMeasurements limits) := by rw [List.zipIdx_map_fst]
          _ = _ := List.flatMap_map _ _ _
      rw [counted]
      exact .flatMap fun c _ => (onElement c.1).inContext _
    exact elements.append (judges_screenFindings limits s)
  have onNumber : Judges (screenCount limits screens.length)
      [⟨.screens, screens.length, limits.screensPerDocument.toNat, none⟩] :=
    Judges.ofLimit (m := ⟨.screens, screens.length, _, none⟩) rfl _
  exact (Judges.flatMap fun s _ => (onScreen s).inContext _).append onNumber

theorem isReference_of_mem {screens : List Screen} :
    ∀ f ∈ referenceFindings screens, f.IsReference := by
  rw [referenceFindings, List.forall_mem_append]
  constructor
  · rw [repeatedIds, List.forall_mem_map]
    exact fun s _ => ⟨rfl, rfl, rfl, rfl, rfl⟩
  · rw [List.forall_mem_flatMap]
    intro s _
    rw [missingTargets, List.forall_mem_map]
    exact fun target _ => ⟨rfl, rfl, rfl, rfl, rfl⟩

theorem isTruthful_of_mem_producedByDocument {limits : Limits} {screens : List Screen} :
    ∀ f ∈ producedByDocument limits screens, f.IsTruthful limits := by
  have judges := judges_measuredFindings limits screens
  rw [producedByDocument_eq, List.forall_mem_append]
  refine ⟨fun f member => ?_, fun f member => (isReference_of_mem f member).isTruthful⟩
  by_cases exceeded : f.code = .limitExceeded
  · obtain ⟨m, -, above, outcome⟩ := judges.exists_excess member exceeded
    exact isTruthful_of_excess above outcome
  · by_cases approaching : f.code = .approachingLimit
    · obtain ⟨m, among, ⟨within, close⟩, outcome⟩ := judges.exists_closeness member approaching
      exact isTruthful_of_closeness among within close outcome
    · exact (judges.others f member exceeded approaching).isTruthful

/-- Findings that are no references are outcomes of measurements, or something is missing. -/
theorem filter_produced_of_not_reference (limits : Limits) (screens : List Screen)
    {p : Finding → Bool} (other : ∀ f, p f = true → f.code ≠ .invalidReference) :
    (producedByDocument limits screens).filter p = (measuredFindings limits screens).filter p := by
  have none : (referenceFindings screens).filter p = [] := by
    rw [List.filter_eq_nil_iff]
    exact fun f member holds => other f holds (isReference_of_mem f member).code
  rw [producedByDocument_eq, List.filter_append, none, List.append_nil]

/-- No measurement has a reference for its outcome. -/
theorem filter_produced_of_reference (limits : Limits) (screens : List Screen)
    {p : Finding → Bool} (only : ∀ f, p f = true → f.code = .invalidReference) :
    (producedByDocument limits screens).filter p = (referenceFindings screens).filter p := by
  have none : (measuredFindings limits screens).filter p = [] := by
    rw [List.filter_eq_nil_iff]
    intro f member holds
    have code := only f holds
    have missing : f.IsMissing := (judges_measuredFindings limits screens).others f member
      (by rw [code]; exact nofun) (by rw [code]; exact nofun)
    exact nomatch code.symm.trans missing.code
  rw [producedByDocument_eq, List.filter_append, none, List.nil_append]

/-! ## Main statement -/

/--
Every finding on a document is truthful, and it is filed under errors or warnings as its severity
says. The findings above limits and close to them are the outcomes of the measurements of the
document, one by one and in their order, and no measurement has both outcomes. The same holds of
each screen and of each element, at every depth, for itself, and there no quantity is measured
twice: what is above its limit and what is close to it are different quantities.
-/
theorem documentReport_truthful (limits : Limits) (screens : List Screen) :
    (∀ f ∈ (documentReport limits screens).findings, f.IsTruthful limits ∧
      (f ∈ (documentReport limits screens).errors ↔ f.kind = .error) ∧
      (f ∈ (documentReport limits screens).warnings ↔ f.kind = .warning)) ∧
    ((documentReport limits screens).findings.filter fun f =>
        f.code = .limitExceeded).map Finding.unworded =
      (documentMeasurements limits screens).filterMap Measurement.excess? ∧
    ((documentReport limits screens).findings.filter fun f =>
        f.code = .approachingLimit).map Finding.unworded =
      (documentMeasurements limits screens).filterMap Measurement.closeness? ∧
    (∀ m : Measurement, m.excess? = none ∨ m.closeness? = none) ∧
    ∀ s ∈ screens,
      (Judges (screenFindings limits s) (screenMeasurements limits s) ∧
        ((screenMeasurements limits s).map Measurement.quantity).Nodup ∧
        Apart (screenFindings limits s) (screenMeasurements limits s)) ∧
      ∀ e ∈ s.walk, Judges (ownFindings limits e) (elementMeasurements limits e) ∧
        ((elementMeasurements limits e).map Measurement.quantity).Nodup ∧
        Apart (ownFindings limits e) (elementMeasurements limits e) := by
  have truthful : ∀ f ∈ producedByDocument limits screens, f.IsTruthful limits :=
    isTruthful_of_mem_producedByDocument
  have judges := judges_measuredFindings limits screens
  have noReference {code : FindingCode} (differs : code ≠ .invalidReference) (f : Finding)
      (is : decide (f.code = code) = true) : f.code ≠ .invalidReference :=
    (of_decide_eq_true is).trans_ne differs
  rw [documentReport_eq_ofFindings]
  refine ⟨?_, ?_, ?_, Measurement.excess?_or_closeness?, ?_⟩
  · intro f member
    rw [Report.mem_findings_ofFindings] at member
    have filed (severity : Severity) :
        f ∈ (Report.ofFindings (producedByDocument limits screens)).filed severity ↔
          f.kind = severity :=
      Report.mem_filed_ofFindings.trans (and_iff_right member)
    exact ⟨truthful f member, filed .error, filed .warning⟩
  · have errors : ∀ f ∈ producedByDocument limits screens,
        decide (f.code = .limitExceeded) = true → f.kind = .error :=
      fun f member is => ((truthful f member).exceeded (of_decide_eq_true is)).1
    rw [Report.filter_findings_ofFindings errors,
      filter_produced_of_not_reference _ _ (noReference (by decide)),
      judges.excesses]
  · have warnings : ∀ f ∈ producedByDocument limits screens,
        decide (f.code = .approachingLimit) = true → f.kind = .warning :=
      fun f member is => ((truthful f member).approaching (of_decide_eq_true is)).1
    rw [Report.filter_findings_ofFindings warnings,
      filter_produced_of_not_reference _ _ (noReference (by decide)),
      judges.closenesses]
  · intro s _
    have onNumbers := judges_screenFindings limits s
    have once := nodup_screenMeasurements limits s
    refine ⟨⟨onNumbers, once, onNumbers.apart once⟩, ?_⟩
    intro e _
    have onElement := judges_ownFindings limits e
    have once := nodup_elementMeasurements limits e
    exact ⟨onElement, once, onElement.apart once⟩

end ScreenFlow.Review
