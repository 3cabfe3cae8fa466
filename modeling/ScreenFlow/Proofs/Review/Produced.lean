import ScreenFlow.Proofs.Review.Enumeration

/-!
# Findings before they are filed

A report keeps errors and warnings apart, and the reports on parts are merged errors first. Before
that the findings on an element, a screen or a document are one list, in the order in which the
rules produce them. A report is this list, filed once at the end: nothing depends on how the
reports on parts were put together.
-/

namespace ScreenFlow.Review

open ScreenFlow.Design (Element Screen)

/-! ## Filing findings at once -/

namespace Report

theorem eq_of_filed {r r' : Report} (same : ∀ severity, r.filed severity = r'.filed severity) :
    r = r' := by
  obtain ⟨errors, warnings⟩ := r
  obtain ⟨errors', warnings'⟩ := r'
  rw [mk.injEq]
  exact ⟨same .error, same .warning⟩

theorem filed_ofFindings (fs : List Finding) (severity : Severity) :
    (ofFindings fs).filed severity = fs.filter fun f => f.kind = severity := by
  rw [ofFindings, filed_pushAll]
  cases severity <;> rfl

theorem mem_filed_ofFindings {fs : List Finding} {f : Finding} {severity : Severity} :
    f ∈ (ofFindings fs).filed severity ↔ f ∈ fs ∧ f.kind = severity := by
  rw [filed_ofFindings, List.mem_filter, decide_eq_true_iff]

/-- Filing loses no finding. -/
theorem mem_findings_ofFindings {fs : List Finding} {f : Finding} :
    f ∈ (ofFindings fs).findings ↔ f ∈ fs := by
  have filed : f ∈ (ofFindings fs).findings ↔
      f ∈ (ofFindings fs).filed .error ∨ f ∈ (ofFindings fs).filed .warning := List.mem_append
  rw [filed, mem_filed_ofFindings, mem_filed_ofFindings, ← and_or_left]
  cases f.kind <;> simp

/-- Findings that are all of one severity stand among all findings of a report in the order in which
they were filed. -/
theorem filter_findings_ofFindings {fs : List Finding} {p : Finding → Bool} {severity : Severity}
    (only : ∀ f ∈ fs, p f = true → f.kind = severity) :
    (ofFindings fs).findings.filter p = fs.filter p := by
  have here : ((ofFindings fs).filed severity).filter p = fs.filter p := by
    rw [filed_ofFindings, List.filter_filter]
    apply List.filter_congr
    intro f member
    cases holds : p f with
    | false => rfl
    | true => exact decide_eq_true (only f member holds)
  have elsewhere {other : Severity} (differs : other ≠ severity) :
      ((ofFindings fs).filed other).filter p = [] := by
    rw [filed_ofFindings, List.filter_eq_nil_iff]
    intro f member holds
    obtain ⟨among, kind⟩ := List.mem_filter.mp member
    exact differs ((of_decide_eq_true kind).symm.trans (only f among holds))
  rw [findings, List.filter_append]
  show ((ofFindings fs).filed .error).filter p ++ ((ofFindings fs).filed .warning).filter p = _
  cases severity with
  | error => rw [here, elsewhere (by decide), List.append_nil]
  | warning => rw [elsewhere (by decide), here, List.nil_append]

theorem pushAll_append (r : Report) (fs gs : List Finding) :
    r.pushAll (fs ++ gs) = (r.pushAll fs).pushAll gs :=
  List.foldl_append

/-- To merge what was made of findings is to file them, although the errors come first. -/
theorem merge_ofFindings (r : Report) (fs : List Finding) (context : String) :
    r.merge (.ofFindings fs) context = r.pushAll (fs.map (Finding.inContext context)) := by
  apply eq_of_filed
  intro severity
  rw [filed_merge r (isFiled_ofFindings fs), filed_ofFindings, filed_pushAll, List.filter_map]
  rfl

/-- To merge part after part is to file the findings of all parts in order. -/
theorem foldl_merge_ofFindings {α : Type} {part : α → Report} {produced : α → List Finding}
    (place : α → String) {as : List α} (made : ∀ a ∈ as, part a = .ofFindings (produced a))
    (r : Report) :
    as.foldl (fun r a => r.merge (part a) (place a)) r =
      r.pushAll (as.flatMap fun a => (produced a).map (Finding.inContext (place a))) := by
  induction as generalizing r with
  | nil => rfl
  | cons a as ih =>
      obtain ⟨first, others⟩ := List.forall_mem_cons.mp made
      rw [List.foldl_cons, ih others, first, merge_ofFindings, List.flatMap_cons, pushAll_append]

end Report

/-! ## Elements, screens and documents -/

/-- The findings on an element and everything inside it in the order of the walk, each with its
place. -/
def producedByElement (limits : Limits) (e : Element) : List Finding :=
  e.placed.flatMap fun p => (ownFindings limits p.2).map fun f =>
    { f with message := pathPlace p.1 ++ f.message }

/-- The findings on a screen, component by component and then those on their numbers. -/
def producedByScreen (limits : Limits) (s : Screen) : List Finding :=
  (s.elements.zipIdx 1).flatMap (fun c =>
    (producedByElement limits c.1).map (Finding.inContext (componentPlace c.2))) ++
    screenFindings limits s

/-- The findings on a document, screen by screen and then those on the whole. -/
def producedByDocument (limits : Limits) (screens : List Screen) : List Finding :=
  screens.flatMap (fun s =>
    (producedByScreen limits s).map (Finding.inContext (screenPlace s.title))) ++
    documentFindings limits screens

theorem producedByElement_eq_inContext (limits : Limits) (e : Element) :
    producedByElement limits e =
      e.placed.flatMap fun p => (ownFindings limits p.2).map (Finding.inContext (pathPlace p.1)) :=
  rfl

theorem producedByElement_eq (limits : Limits) (e : Element) :
    producedByElement limits e = ownFindings limits e ++ e.steps.flatMap fun c =>
      (producedByElement limits c.2).map (Finding.inContext (stepPlace c.1)) := by
  have own : (ownFindings limits e).map (Finding.inContext (pathPlace [])) =
      ownFindings limits e := by
    rw [pathPlace, List.map_congr_left fun f _ => inContext_empty f, List.map_id']
  rw [producedByElement_eq_inContext, Element.placed_eq, List.flatMap_cons, own,
    List.flatMap_assoc]
  congr 1
  apply List.flatMap_congr
  intro c _
  rw [producedByElement_eq_inContext, Element.placedAfter, List.flatMap_map, List.map_flatMap]
  apply List.flatMap_congr
  intro p _
  rw [List.map_map, pathPlace]
  exact List.map_congr_left fun f _ => inContext_append _ _ f

theorem elementReport_eq_ofFindings (limits : Limits) (e : Element) :
    elementReport limits e = .ofFindings (producedByElement limits e) := by
  induction e using Element.stepInduction with
  | step e ih =>
      rw [elementReport_eq, checkElement,
        Report.foldl_merge_ofFindings (fun c => stepPlace c.1) ih, Report.ofFindings,
        ← Report.pushAll_append, ← producedByElement_eq]
      rfl

theorem screenReport_eq_ofFindings (limits : Limits) (s : Screen) :
    screenReport limits s = .ofFindings (producedByScreen limits s) := by
  have made : ∀ c ∈ s.elements.zipIdx 1,
      elementReport limits c.1 = .ofFindings (producedByElement limits c.1) :=
    fun c _ => elementReport_eq_ofFindings limits c.1
  rw [screenReport, mergeComponents_eq,
    Report.foldl_merge_ofFindings (fun c => componentPlace c.2) made, ← Report.pushAll_append]
  rfl

theorem documentReport_eq_ofFindings (limits : Limits) (screens : List Screen) :
    documentReport limits screens = .ofFindings (producedByDocument limits screens) := by
  rw [documentReport, Report.foldl_merge_ofFindings (fun s => screenPlace s.title)
    fun s _ => screenReport_eq_ofFindings limits s, ← Report.pushAll_append]
  rfl

end ScreenFlow.Review
