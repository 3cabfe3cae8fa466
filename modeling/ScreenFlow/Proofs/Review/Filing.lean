import ScreenFlow.Review.Finding

/-!
# Filing

A report keeps errors and warnings apart, each in the order in which they were filed. Merging a part
files its findings once more, errors first, so within a severity nothing changes its order.
-/

namespace ScreenFlow.Review.Report

/-! ## Findings -/

/-- The findings of a severity. -/
def filed (r : Report) : Severity → List Finding
  | .error => r.errors
  | .warning => r.warnings

/-- Errors are filed as errors and warnings as warnings. -/
def IsFiled (r : Report) : Prop := ∀ severity, ∀ f ∈ r.filed severity, f.kind = severity

/-- A finding is filed at the end of its severity. -/
theorem filed_push (r : Report) (f : Finding) (severity : Severity) :
    (r.push f).filed severity = r.filed severity ++ [f].filter fun f => f.kind = severity := by
  cases severity <;> cases kind : f.kind <;> simp [push, filed, kind]

theorem filed_pushAll (r : Report) (fs : List Finding) (severity : Severity) :
    (r.pushAll fs).filed severity = r.filed severity ++ fs.filter fun f => f.kind = severity := by
  induction fs generalizing r with
  | nil => exact (List.append_nil _).symm
  | cons f fs ih =>
      show ((r.push f).pushAll fs).filed severity = _
      rw [ih, filed_push, List.append_assoc, ← List.filter_append, List.singleton_append]

theorem errors_pushAll (r : Report) (fs : List Finding) :
    (r.pushAll fs).errors = r.errors ++ fs.filter Finding.isError :=
  filed_pushAll r fs .error

theorem isFiled_pushAll {r : Report} (filed : r.IsFiled) (fs : List Finding) :
    (r.pushAll fs).IsFiled := by
  intro severity f member
  rw [filed_pushAll, List.mem_append, List.mem_filter] at member
  rcases member with old | ⟨-, new⟩
  · exact filed severity f old
  · exact of_decide_eq_true new

theorem isFiled_ofFindings (fs : List Finding) : (ofFindings fs).IsFiled := by
  refine isFiled_pushAll ?_ fs
  intro severity f member
  cases severity <;> cases member

/-- Among all findings of a report, those of a severity are the ones filed under it. -/
theorem filter_findings {r : Report} (filed : r.IsFiled) (severity : Severity) :
    (r.findings.filter fun f => f.kind = severity) = r.filed severity := by
  have kept (same : Severity) (is : same = severity) :
      ((r.filed same).filter fun f => f.kind = severity) = r.filed same :=
    List.filter_eq_self.mpr fun f member => decide_eq_true ((filed same f member).trans is)
  have dropped (other : Severity) (isnt : other ≠ severity) :
      ((r.filed other).filter fun f => f.kind = severity) = [] :=
    List.filter_eq_nil_iff.mpr fun f member is =>
      isnt ((filed other f member).symm.trans (of_decide_eq_true is))
  rw [findings, List.filter_append]
  show (r.filed .error).filter _ ++ (r.filed .warning).filter _ = _
  cases severity with
  | error => rw [kept .error rfl, dropped .warning (by decide), List.append_nil]
  | warning => rw [dropped .error (by decide), kept .warning rfl, List.nil_append]

/-! ## Parts -/

/-- Merging files every finding of the part by its own severity, wherever the part had it. -/
theorem filed_merge_any (r part : Report) (context : String) (severity : Severity) :
    (r.merge part context).filed severity = r.filed severity ++
      (part.findings.filter fun f => f.kind = severity).map (Finding.inContext context) := by
  rw [merge, filed_pushAll, List.filter_map]
  rfl

/-- Merging adds the findings of a part that has them filed at the end of their severity. -/
theorem filed_merge (r : Report) {part : Report} (filed : part.IsFiled) (context : String)
    (severity : Severity) : (r.merge part context).filed severity =
      r.filed severity ++ (part.filed severity).map (Finding.inContext context) := by
  rw [filed_merge_any, filter_findings filed]

theorem isFiled_foldl_merge {α : Type} (part : α → Report) (place : α → String) {r : Report}
    (filed : r.IsFiled) (as : List α) :
    (as.foldl (fun r a => r.merge (part a) (place a)) r).IsFiled := by
  induction as generalizing r with
  | nil => exact filed
  | cons a as ih => exact ih (isFiled_pushAll filed _)

/-- Merging part after part adds the findings of all parts in order. -/
theorem filed_foldl_merge {α : Type} {part : α → Report} (place : α → String) {as : List α}
    (filed : ∀ a ∈ as, (part a).IsFiled) (r : Report) (severity : Severity) :
    (as.foldl (fun r a => r.merge (part a) (place a)) r).filed severity = r.filed severity ++
      as.flatMap fun a => ((part a).filed severity).map (Finding.inContext (place a)) := by
  induction as generalizing r with
  | nil => exact (List.append_nil _).symm
  | cons a as ih =>
      obtain ⟨first, others⟩ := List.forall_mem_cons.mp filed
      rw [List.foldl_cons, ih others, filed_merge r first, List.flatMap_cons, List.append_assoc]

end ScreenFlow.Review.Report
