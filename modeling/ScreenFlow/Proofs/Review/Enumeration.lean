import ScreenFlow.Proofs.Design.Targets
import ScreenFlow.Proofs.FormLayout
import ScreenFlow.Proofs.Review.Filing
import ScreenFlow.Proofs.Review.Places
import ScreenFlow.Review.Document

/-!
# Reports as one pass

A report is put together bottom-up: the report on every element is merged into the one around it,
errors first, with a place before each message. What comes out is nevertheless one pass over the
elements of all screens in the order of the walk, with the places of each written out: nothing is
lost, filed twice or moved within its severity on the way. Places, and the findings on screens and
documents, are spelled here as they are shown, and not through the definitions that the rules use.
-/

namespace ScreenFlow.Review

open ScreenFlow.Design (Branch Element Screen Step)

/-! ## Places -/

/-- The place that a step leads to. -/
def stepPlace (step : Step) : String :=
  match step.branch with
  | .thenBranch => "then[" ++ toString step.position ++ "]: "
  | .elseBranch => "else[" ++ toString step.position ++ "]: "
  | .caseBranch name => "case \"" ++ name ++ "\"[" ++ toString step.position ++ "]: "

/-- The place that steps lead to, the outermost first. -/
def pathPlace : List Step → String
  | [] => ""
  | step :: path => stepPlace step ++ pathPlace path

theorem branchPlace_then (position : Nat) :
    branchPlace "then" position = stepPlace ⟨.thenBranch, position⟩ := rfl

theorem branchPlace_else (position : Nat) :
    branchPlace "else" position = stepPlace ⟨.elseBranch, position⟩ := rfl

theorem branchPlace_case (name : String) (position : Nat) :
    branchPlace (caseBranch name) position = stepPlace ⟨.caseBranch name, position⟩ := by
  have bracket : "\"[" = "\"" ++ "[" := rfl
  rw [branchPlace, caseBranch, stepPlace, bracket]
  simp only [String.append_assoc]

/-- The places of a screen and of a component on it are one text. -/
theorem screenPlace_append_componentPlace (title : String) (position : Nat) :
    screenPlace title ++ componentPlace position =
      "Screen \"" ++ title ++ "\": Component " ++ toString position ++ ": " := by
  have middle : "\": Component " = "\": " ++ "Component " := rfl
  rw [screenPlace, componentPlace, middle]
  simp only [String.append_assoc]

theorem inContext_empty (f : Finding) : f.inContext "" = f := by
  rw [Finding.inContext, String.empty_append]

theorem inContext_append (outer inner : String) (f : Finding) :
    f.inContext (outer ++ inner) = (f.inContext inner).inContext outer := by
  rw [Finding.inContext, String.append_assoc]
  rfl

/-! ## One element -/

/-- The rules for one element, with any way to report on those in its branches. -/
def checkElement (limits : Limits) (nested : Element → Report) (e : Element) : Report :=
  e.steps.foldl (fun r c => r.merge (nested c.2) (stepPlace c.1))
    (.ofFindings (ownFindings limits e))

/-- Without reports on branches the rules give the findings on the element alone. -/
theorem checkElement_empty (limits : Limits) (e : Element) :
    checkElement limits (fun _ => .empty) e = .ofFindings (ownFindings limits e) :=
  List.foldl_fixed e.steps

theorem isFiled_checkElement (limits : Limits) (nested : Element → Report) (e : Element) :
    (checkElement limits nested e).IsFiled :=
  Report.isFiled_foldl_merge _ _ (Report.isFiled_ofFindings _) e.steps

theorem mergeBranch_eq (limits : Limits) (branch : String) (position : Nat) (r : Report)
    (es : List Element) : mergeBranch limits branch position r es = (es.zipIdx position).foldl
      (fun r c => r.merge (elementReport limits c.1) (branchPlace branch c.2)) r := by
  induction es generalizing position r with
  | nil => rfl
  | cons e es ih =>
      rw [mergeBranch, ih]
      rfl

/-- Merging a branch goes through the steps into it, when its name is the one that they show. -/
theorem mergeBranch_eq_foldl_stepsInto {branch : Branch} {name : String}
    (shown : ∀ position, branchPlace name position = stepPlace ⟨branch, position⟩)
    (limits : Limits) (r : Report) (es : List Element) :
    mergeBranch limits name 1 r es = (Element.stepsInto branch es).foldl
      (fun r c => r.merge (elementReport limits c.2) (stepPlace c.1)) r := by
  rw [mergeBranch_eq, Element.stepsInto, List.foldl_map]
  simp only [shown]

theorem mergeCases_eq (limits : Limits) (r : Report) (cs : List (String × List Element)) :
    mergeCases limits r cs = (cs.flatMap fun c => Element.stepsInto (.caseBranch c.1) c.2).foldl
      (fun r c => r.merge (elementReport limits c.2) (stepPlace c.1)) r := by
  induction cs generalizing r with
  | nil => rfl
  | cons c cs ih =>
      rw [mergeCases, ih, mergeBranch_eq_foldl_stepsInto (branchPlace_case c.1), List.flatMap_cons,
        List.foldl_append]

/-- The report on an element follows the rules with the reports on those in its branches. -/
theorem elementReport_eq (limits : Limits) (e : Element) :
    elementReport limits e = checkElement limits (elementReport limits) e := by
  cases e with
  | widget w => rfl
  | ifBlock condition thenBranch elseBranch =>
      rw [elementReport, mergeBranch_eq_foldl_stepsInto branchPlace_then,
        mergeBranch_eq_foldl_stepsInto branchPlace_else, checkElement, Element.steps,
        List.foldl_append]
  | switchBlock value cases =>
      rw [elementReport, mergeCases_eq]
      rfl

theorem isFiled_elementReport (limits : Limits) (e : Element) :
    (elementReport limits e).IsFiled := by
  rw [elementReport_eq]
  exact isFiled_checkElement limits _ e

/-! ## One pass over an element -/

/-- What the rules file for an element alone, with the place that it has. -/
def placedFindings (limits : Limits) (severity : Severity) (p : List Step × Element) :
    List Finding :=
  ((checkElement limits (fun _ => .empty) p.2).filed severity).map
    (Finding.inContext (pathPlace p.1))

/-- A report holds for every element inside what the rules file for it alone, in the order of the
walk. -/
theorem filed_elementReport (limits : Limits) (severity : Severity) (e : Element) :
    (elementReport limits e).filed severity =
      e.placed.flatMap (placedFindings limits severity) := by
  induction e using Element.stepInduction with
  | step e ih =>
      have own : placedFindings limits severity ([], e) =
          (Report.ofFindings (ownFindings limits e)).filed severity := by
        rw [placedFindings, checkElement_empty, pathPlace, List.map_congr_left fun f _ =>
          inContext_empty f, List.map_id']
      have behind : ∀ c ∈ e.steps,
          ((elementReport limits c.2).filed severity).map (Finding.inContext (stepPlace c.1)) =
            (Element.placedAfter c).flatMap (placedFindings limits severity) := by
        intro c member
        rw [ih c member, List.map_flatMap, Element.placedAfter, List.flatMap_map]
        apply List.flatMap_congr
        intro p _
        rw [placedFindings, placedFindings, List.map_map, pathPlace]
        exact List.map_congr_left fun f _ => (inContext_append _ _ f).symm
      rw [elementReport_eq, checkElement,
        Report.filed_foldl_merge _ fun c _ => isFiled_elementReport limits c.2, Element.placed_eq,
        List.flatMap_cons, own, List.flatMap_assoc]
      exact congrArg _ (List.flatMap_congr behind)

/-! ## One pass over a screen -/

/-- What the rules file for every element of a screen alone, component by component and each in the
order of the walk, with its place in the document. -/
def elementwise (limits : Limits) (severity : Severity) (s : Screen) : List Finding :=
  (s.elements.zipIdx 1).flatMap fun c => c.1.placed.flatMap fun p =>
    ((checkElement limits (fun _ => .empty) p.2).filed severity).map fun f =>
      { f with message := "Screen \"" ++ s.title ++ "\": Component " ++ toString c.2 ++ ": " ++
          pathPlace p.1 ++ f.message }

theorem elementwise_eq (limits : Limits) (severity : Severity) (s : Screen) :
    elementwise limits severity s = (s.elements.zipIdx 1).flatMap fun c =>
      c.1.placed.flatMap fun p =>
        ((checkElement limits (fun _ => .empty) p.2).filed severity).map
          (Finding.inContext (screenPlace s.title ++ componentPlace c.2 ++ pathPlace p.1)) := by
  simp only [screenPlace_append_componentPlace]
  rfl

/-- The error that a screen has more of something than it may. -/
def tooMany (what : String) (count limit : Nat) : List Finding :=
  if limit < count then
    [{  kind := .error
        code := .limitExceeded
        message := "Screen has " ++ toString count ++ " " ++ what ++ "; the maximum is " ++
          toString limit
        field := some "elements"
        limit := some limit
        current := some count }]
  else []

/-- The errors on the numbers of components of a screen. Form components are those with an input or a
footer somewhere inside. -/
def countErrors (limits : Limits) (s : Screen) : List Finding :=
  tooMany "components" s.elements.length limits.componentsPerScreen.toNat ++
    tooMany "form components" (s.elements.countP fun e => e.walk.any Element.submits)
      limits.formComponentsPerScreen.toNat ++
    tooMany "embedded links" (s.elements.countP fun e => e.kind = .embeddedLink)
      limits.embeddedLinksPerScreen.toNat ++
    tooMany "footers" (s.elements.countP fun e => e.kind = .footer) limits.footersPerScreen.toNat

/-- The warning on the number of components of a screen that has not too many. -/
def countWarnings (limits : Limits) (s : Screen) : List Finding :=
  if s.elements.length ≤ limits.componentsPerScreen.toNat ∧
      limits.componentsWarningThreshold.toNat < s.elements.length then
    [{  kind := .warning
        code := .approachingLimit
        message := "Screen has " ++ toString s.elements.length ++
          " components and is approaching the maximum of " ++
          toString limits.componentsPerScreen.toNat
        field := some "elements"
        limit := some limits.componentsPerScreen.toNat
        current := some s.elements.length }]
  else []

/-- Embedded links and footers are told by their kind. -/
theorem isEmbeddedLink_and_isFooter_eq (e : Element) :
    e.isEmbeddedLink = decide (e.kind = .embeddedLink) ∧
      e.isFooter = decide (e.kind = .footer) := by
  cases e with
  | widget w =>
      cases w with
      | heading level => cases level <;> exact ⟨rfl, rfl⟩
      | body style => cases style <;> exact ⟨rfl, rfl⟩
      | textInput purpose => cases purpose <;> exact ⟨rfl, rfl⟩
      | selector style => cases style <;> exact ⟨rfl, rfl⟩
      | _ => exact ⟨rfl, rfl⟩
  | _ => exact ⟨rfl, rfl⟩

theorem countErrors_eq (limits : Limits) (s : Screen) :
    countErrors limits s =
      maxOnScreen "components" s.elements.length limits.componentsPerScreen ++
        maxOnScreen "form components" (s.elements.countP Element.isFormClass)
          limits.formComponentsPerScreen ++
        maxOnScreen "embedded links" (s.elements.countP Element.isEmbeddedLink)
          limits.embeddedLinksPerScreen ++
        maxOnScreen "footers" (s.elements.countP Element.isFooter) limits.footersPerScreen := by
  rw [funext Element.isFormClass_eq_any_submits,
    funext fun e => (isEmbeddedLink_and_isFooter_eq e).1,
    funext fun e => (isEmbeddedLink_and_isFooter_eq e).2]
  rfl

/-- The findings of a severity on the numbers of components of a screen. -/
def countFindings (limits : Limits) (s : Screen) : Severity → List Finding
  | .error => countErrors limits s
  | .warning => countWarnings limits s

@[simp]
theorem kind_exceeded (field message : String) (limit current : Nat) :
    (Finding.exceeded field message limit current).kind = .error := rfl

@[simp]
theorem kind_approaching (field message : String) (limit current : Nat) :
    (Finding.approaching field message limit current).kind = .warning := rfl

theorem approaching_eq (field message : String) (limit current : Nat) :
    Finding.approaching field message limit current =
      ⟨.warning, .approachingLimit, message, some field, some limit, some current⟩ := rfl

/-- Too many of something on a screen is an error. -/
theorem filter_maxOnScreen (what : String) (count : Nat) (limit : UInt64) (severity : Severity) :
    ((maxOnScreen what count limit).filter fun f => f.kind = severity) =
      match severity with
      | .error => maxOnScreen what count limit
      | .warning => [] := by
  by_cases above : limit.toNat < count
  · cases severity <;> simp [maxOnScreen, above]
  · cases severity <;> simp [maxOnScreen, above]

/-- The number of components gives a warning only where it gives no error. -/
theorem filter_componentCount (limits : Limits) (s : Screen) (severity : Severity) :
    ((componentCount limits s.elements.length).filter fun f => f.kind = severity) =
      match severity with
      | .error => maxOnScreen "components" s.elements.length limits.componentsPerScreen
      | .warning => countWarnings limits s := by
  by_cases above : limits.componentsPerScreen.toNat < s.elements.length
  · have full : ¬s.elements.length ≤ limits.componentsPerScreen.toNat := Nat.not_le.mpr above
    cases severity <;> simp [componentCount, maxOnScreen, countWarnings, above, full]
  · have within : s.elements.length ≤ limits.componentsPerScreen.toNat := Nat.not_lt.mp above
    by_cases close : limits.componentsWarningThreshold.toNat < s.elements.length
    · cases severity <;>
        simp [componentCount, maxOnScreen, countWarnings, approaching_eq, above, within, close]
    · cases severity <;> simp [componentCount, maxOnScreen, countWarnings, above, close]

theorem filter_screenFindings (limits : Limits) (s : Screen) (severity : Severity) :
    ((screenFindings limits s).filter fun f => f.kind = severity) =
      countFindings limits s severity := by
  rw [screenFindings, List.filter_append, List.filter_append, List.filter_append,
    filter_componentCount, filter_maxOnScreen, filter_maxOnScreen, filter_maxOnScreen]
  cases severity with
  | error => exact (countErrors_eq limits s).symm
  | warning => simp [countFindings]

theorem mergeComponents_eq (limits : Limits) (position : Nat) (r : Report) (es : List Element) :
    mergeComponents limits position r es = (es.zipIdx position).foldl
      (fun r c => r.merge (elementReport limits c.1) (componentPlace c.2)) r := by
  induction es generalizing position r with
  | nil => rfl
  | cons e es ih =>
      rw [mergeComponents, ih]
      rfl

theorem isFiled_screenReport (limits : Limits) (s : Screen) : (screenReport limits s).IsFiled := by
  rw [screenReport, mergeComponents_eq]
  exact Report.isFiled_pushAll (Report.isFiled_foldl_merge _ _ (Report.isFiled_ofFindings []) _) _

/-- In a document the report on a screen comes to what the rules file for its elements and then for
their numbers. -/
theorem filed_screenReport (limits : Limits) (s : Screen) (severity : Severity) :
    ((screenReport limits s).filed severity).map (Finding.inContext (screenPlace s.title)) =
      elementwise limits severity s ++
        (countFindings limits s severity).map (Finding.inContext (screenPlace s.title)) := by
  have components : (mergeComponents limits 1 .empty s.elements).filed severity =
      (s.elements.zipIdx 1).flatMap fun c => ((elementReport limits c.1).filed severity).map
        (Finding.inContext (componentPlace c.2)) := by
    rw [mergeComponents_eq, Report.filed_foldl_merge _ fun c _ => isFiled_elementReport limits c.1]
    cases severity <;> rfl
  rw [screenReport, Report.filed_pushAll, components, filter_screenFindings, List.map_append,
    List.map_flatMap, elementwise_eq]
  congr 1
  apply List.flatMap_congr
  intro c _
  rw [filed_elementReport, List.map_flatMap, List.map_flatMap]
  apply List.flatMap_congr
  intro p _
  rw [placedFindings, List.map_map, List.map_map]
  apply List.map_congr_left
  intro f _
  rw [Function.comp_apply, Function.comp_apply, ← inContext_append, ← inContext_append]

/-! ## One pass over a document -/

theorem filed_documentReport (limits : Limits) (screens : List Screen) (severity : Severity) :
    (documentReport limits screens).filed severity =
      screens.flatMap (fun s => elementwise limits severity s ++
        (countFindings limits s severity).map (Finding.inContext (screenPlace s.title))) ++
        (documentFindings limits screens).filter fun f => f.kind = severity := by
  have filed : ∀ s ∈ screens, (screenReport limits s).IsFiled :=
    fun s _ => isFiled_screenReport limits s
  rw [documentReport, Report.filed_pushAll,
    Report.filed_foldl_merge (fun s => screenPlace s.title) filed]
  simp only [filed_screenReport]
  cases severity <;> rfl

/-- The findings on a document besides those on its screens are errors. -/
theorem kind_of_mem_documentFindings {limits : Limits} {screens : List Screen} :
    ∀ f ∈ documentFindings limits screens, f.kind = .error := by
  rw [documentFindings, List.forall_mem_append, List.forall_mem_append]
  refine ⟨⟨?_, ?_⟩, ?_⟩
  · unfold screenCount
    split <;> simp
  · rw [repeatedIds, List.forall_mem_map]
    intro s _
    rfl
  · rw [List.forall_mem_flatMap]
    intro s _
    rw [missingTargets, List.forall_mem_map]
    intro target _
    rfl

/-- A missing target is shown with the place of its screen. -/
theorem missingTargets_eq (ids : List String) (s : Screen) :
    missingTargets ids s = (s.navigationTargets.filter fun target => target ∉ ids).map fun target =>
      ⟨.error, .invalidReference, "Screen \"" ++ s.title ++ "\": Navigation target \"" ++ target ++
        "\" does not exist", some "onClickAction", none, none⟩ := by
  have middle : "\": " ++ "Navigation target \"" = "\": Navigation target \"" := rfl
  rw [missingTargets]
  apply List.map_congr_left
  intro target _
  show Finding.mk _ _ (screenPlace s.title ++ _) _ _ _ = _
  rw [screenPlace, ← middle]
  simp only [String.append_assoc]
  rfl

/-! ## Main statement -/

/--
The errors of a report on a document are exactly these, in this order: for each screen the errors of
the rules for every element alone, each with its place before the message and unchanged otherwise,
and those on the numbers of its components; then the number of screens; then every screen whose id
stands before it; then the targets of every screen that are no screens, each target once. The
warnings are those of the elements and of the numbers of components. Targets are those of footers
and navigation lists, and the places of the elements of a component are those that steps lead to,
in the order of the walk.
-/
theorem documentReport_enumerates (limits : Limits) (screens : List Screen) :
    (documentReport limits screens).errors =
      screens.flatMap (fun s => elementwise limits .error s ++
        (countErrors limits s).map fun f =>
          { f with message := "Screen \"" ++ s.title ++ "\": " ++ f.message }) ++
      (if limits.screensPerDocument.toNat < screens.length then
        [⟨.error, .limitExceeded, "Document has " ++ toString screens.length ++
          " screens; the maximum is " ++ toString limits.screensPerDocument.toNat,
          some "screens", some limits.screensPerDocument.toNat, some screens.length⟩]
      else []) ++
      (screens.zipIdx.filter fun c => c.1.id ∈ (screens.take c.2).map Screen.id).map (fun c =>
        ⟨.error, .invalidReference, "Screen id \"" ++ c.1.id ++
          "\" is used by more than one screen", some "id", none, none⟩) ++
      screens.flatMap (fun s =>
        (s.navigationTargets.filter fun target => target ∉ screens.map Screen.id).map fun target =>
          ⟨.error, .invalidReference, "Screen \"" ++ s.title ++ "\": Navigation target \"" ++
            target ++ "\" does not exist", some "onClickAction", none, none⟩) ∧
    (documentReport limits screens).warnings =
      screens.flatMap (fun s => elementwise limits .warning s ++
        (countWarnings limits s).map fun f =>
          { f with message := "Screen \"" ++ s.title ++ "\": " ++ f.message }) ∧
    (∀ s ∈ screens, s.navigationTargets.Nodup ∧
      ∀ target, target ∈ s.navigationTargets ↔
        ∃ e ∈ s.walk, e.isRouted = true ∧ target ∈ e.targets) ∧
    ∀ s ∈ screens, ∀ e ∈ s.elements, e.placed.map Prod.snd = e.walk ∧
      ∀ path inner, (path, inner) ∈ e.placed ↔ e.Leads path inner := by
  refine ⟨?_, ?_, ?_, ?_⟩
  · have errors := filed_documentReport limits screens .error
    have all : ((documentFindings limits screens).filter fun f => f.kind = .error) =
        documentFindings limits screens :=
      List.filter_eq_self.mpr fun f member => decide_eq_true (kind_of_mem_documentFindings f member)
    have targets := funext (missingTargets_eq (screens.map Screen.id))
    rw [all, documentFindings, repeatedIds, repeats_eq, List.map_map, targets] at errors
    simp only [List.append_assoc] at errors ⊢
    exact errors
  · have warnings := filed_documentReport limits screens .warning
    have none : ((documentFindings limits screens).filter fun f => f.kind = .warning) = [] :=
      List.filter_eq_nil_iff.mpr fun f member warning => by
        rw [kind_of_mem_documentFindings f member] at warning
        cases warning
    rw [none, List.append_nil] at warnings
    exact warnings
  · intro s _
    exact ⟨Design.nodup_navigationTargets s, fun target => Design.mem_navigationTargets⟩
  · intro s _ e _
    exact ⟨e.map_snd_placed, fun path inner => Element.mem_placed_iff⟩

end ScreenFlow.Review
