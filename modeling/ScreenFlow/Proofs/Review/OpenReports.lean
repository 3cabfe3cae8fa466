import ScreenFlow.Proofs.Review.Produced

/-!
# Open reports

A review opens a report for every part, files in the report that was opened last, and closes it into
the one below with the place of the part. Closing reads errors before warnings, and it happens at
every depth; what is there when all parts are closed is nevertheless what filing each finding once
would have given, in the order in which they were found, with the places of all closes around it.
-/

namespace ScreenFlow.Review

open ScreenFlow.Design (Element)

/-! ## Merging -/

namespace Report

/-- To merge a part through a report of its own is to merge it with both places at once, also a part
that files its findings wrongly. -/
theorem merge_merge (r part : Report) (inner outer : String) :
    r.merge (empty.merge part inner) outer = r.merge part (outer ++ inner) := by
  show r.merge (.ofFindings (part.findings.map (Finding.inContext inner))) outer = _
  rw [merge_ofFindings, List.map_map, merge]
  congr 1
  exact List.map_congr_left fun f _ => (inContext_append outer inner f).symm

theorem length_findings_pushAll (r : Report) (fs : List Finding) :
    (r.pushAll fs).findings.length = r.findings.length + fs.length := by
  induction fs generalizing r with
  | nil => rfl
  | cons f fs ih =>
      have one : (r.push f).findings.length = r.findings.length + 1 := by
        cases kind : f.kind <;> simp [push, findings, kind] <;> omega
      show ((r.push f).pushAll fs).findings.length = _
      rw [ih, one, List.length_cons]
      omega

/-- The rules for an element, filed in a report that is already there. -/
def check (limits : Limits) (r : Report) (e : Element) : Report :=
  e.steps.foldl (fun r c => r.merge (elementReport limits c.2) (stepPlace c.1))
    (r.pushAll (ownFindings limits e))

theorem check_empty (limits : Limits) (e : Element) :
    empty.check limits e = elementReport limits e :=
  (elementReport_eq limits e).symm

theorem check_eq_pushAll (limits : Limits) (r : Report) (e : Element) :
    r.check limits e = r.pushAll (producedByElement limits e) := by
  have made : ∀ c ∈ e.steps,
      elementReport limits c.2 = .ofFindings (producedByElement limits c.2) :=
    fun c _ => elementReport_eq_ofFindings limits c.2
  rw [check, foldl_merge_ofFindings (fun c => stepPlace c.1) made, ← pushAll_append,
    ← producedByElement_eq]

end Report

/-! ## Runs -/

/-- What happens to open reports. -/
inductive Event where
  /-- An empty report is opened. -/
  | opened
  /-- A finding is filed. -/
  | found (f : Finding)
  /-- An element is checked. -/
  | checked (limits : Limits) (e : Element)
  /-- The report that was opened last is closed into the one below. -/
  | closed (context : String)

namespace Event

def isOpened : Event → Bool
  | .opened => true
  | _ => false

def isClosed : Event → Bool
  | .closed _ => true
  | _ => false

/-- What an event adds to the report that was opened last. -/
def findings : Event → List Finding
  | .found f => [f]
  | .checked limits e => producedByElement limits e
  | .opened | .closed _ => []

end Event

/-- The reports that are open, of which there is always one. -/
structure OpenReports where
  /-- The report that was opened last. -/
  current : Report
  /-- The others, the one that is closed into first in front. -/
  below : List Report

namespace OpenReports

/-- One empty report. -/
def start : OpenReports := ⟨.empty, []⟩

/-- All reports that are open, the one that was opened last in front. -/
def all (s : OpenReports) : List Report := s.current :: s.below

/-- One event. The first report cannot be closed. -/
def step (s : OpenReports) : Event → Option OpenReports
  | .opened => some ⟨.empty, s.current :: s.below⟩
  | .found f => some ⟨s.current.push f, s.below⟩
  | .checked limits e => some ⟨s.current.check limits e, s.below⟩
  | .closed context =>
    match s.below with
    | [] => none
    | outer :: below => some ⟨outer.merge s.current context, below⟩

/-- Event after event. -/
def run (s : OpenReports) : List Event → Option OpenReports
  | [] => some s
  | event :: events => (s.step event).bind fun s => s.run events

/-! ## When runs go on -/

/-- The number of open reports is that of those opened and not closed. -/
theorem length_below_of_step {s s' : OpenReports} {event : Event}
    (stepped : s.step event = some s') :
    s'.below.length + [event].countP Event.isClosed =
      s.below.length + [event].countP Event.isOpened := by
  obtain ⟨current, below⟩ := s
  cases event with
  | opened | found f | checked limits e =>
      obtain rfl := Option.some.inj stepped
      rfl
  | closed context =>
      cases below with
      | nil => cases stepped
      | cons outer below =>
          obtain rfl := Option.some.inj stepped
          rfl

theorem length_below_of_run {s s' : OpenReports} {events : List Event}
    (ran : s.run events = some s') :
    s'.below.length + events.countP Event.isClosed =
      s.below.length + events.countP Event.isOpened := by
  induction events generalizing s with
  | nil =>
      obtain rfl := Option.some.inj ran
      rfl
  | cons event events ih =>
      obtain ⟨next, stepped, rest⟩ := Option.bind_eq_some_iff.mp ran
      have first := length_below_of_step stepped
      have others := ih rest
      rw [← List.singleton_append, List.countP_append, List.countP_append]
      omega

/-- Only the first report cannot be closed. -/
theorem step_eq_none_iff (s : OpenReports) (event : Event) :
    s.step event = none ↔ s.below.length + [event].countP Event.isOpened <
      [event].countP Event.isClosed := by
  obtain ⟨current, below⟩ := s
  cases event with
  | opened | found f | checked limits e => simp [step, Event.isClosed]
  | closed context => cases below <;> simp [step, Event.isOpened, Event.isClosed]

/-- A run goes on exactly as long as no more reports are closed than were opened. -/
theorem isSome_run_iff (s : OpenReports) (events : List Event) :
    (s.run events).isSome ↔ ∀ before, before <+: events →
      before.countP Event.isClosed ≤ s.below.length + before.countP Event.isOpened := by
  induction events generalizing s with
  | nil =>
      refine iff_of_true rfl ?_
      intro before beginning
      rw [List.prefix_nil.mp beginning]
      exact Nat.zero_le _
  | cons event events ih =>
      rw [run]
      cases stepped : s.step event with
      | none =>
          -- The event itself is one report too many.
          have tooMany := (step_eq_none_iff s event).mp stepped
          refine iff_of_false (by simp) fun all => ?_
          exact Nat.not_le.mpr tooMany (all [event] ⟨events, rfl⟩)
      | some next =>
          have first := length_below_of_step stepped
          rw [Option.bind_some, ih]
          constructor
          · intro all before beginning
            rcases List.prefix_cons_iff.mp beginning with rfl | ⟨rest, rfl, shorter⟩
            · exact Nat.zero_le _
            · have others := all rest shorter
              rw [← List.singleton_append, List.countP_append, List.countP_append]
              omega
          · intro all before beginning
            have whole := all (event :: before) (List.cons_prefix_cons.mpr ⟨rfl, beginning⟩)
            rw [← List.singleton_append, List.countP_append, List.countP_append] at whole
            omega

/-! ## What is filed -/

theorem isFiled_of_step {s s' : OpenReports} {event : Event} (stepped : s.step event = some s')
    (filed : ∀ r ∈ s.all, r.IsFiled) : ∀ r ∈ s'.all, r.IsFiled := by
  obtain ⟨current, below⟩ := s
  obtain ⟨first, others⟩ := List.forall_mem_cons.mp filed
  cases event with
  | opened =>
      obtain rfl := Option.some.inj stepped
      exact List.forall_mem_cons.mpr ⟨Report.isFiled_ofFindings [], filed⟩
  | found f =>
      obtain rfl := Option.some.inj stepped
      exact List.forall_mem_cons.mpr ⟨Report.isFiled_pushAll first [f], others⟩
  | checked limits e =>
      obtain rfl := Option.some.inj stepped
      refine List.forall_mem_cons.mpr ⟨?_, others⟩
      rw [Report.check_eq_pushAll]
      exact Report.isFiled_pushAll first _
  | closed context =>
      cases below with
      | nil => cases stepped
      | cons outer below =>
          obtain rfl := Option.some.inj stepped
          obtain ⟨second, others⟩ := List.forall_mem_cons.mp others
          exact List.forall_mem_cons.mpr ⟨Report.isFiled_pushAll second _, others⟩

theorem isFiled_of_run {s s' : OpenReports} {events : List Event} (ran : s.run events = some s')
    (filed : ∀ r ∈ s.all, r.IsFiled) : ∀ r ∈ s'.all, r.IsFiled := by
  induction events generalizing s with
  | nil =>
      obtain rfl := Option.some.inj ran
      exact filed
  | cons event events ih =>
      obtain ⟨next, stepped, rest⟩ := Option.bind_eq_some_iff.mp ran
      exact ih rest (isFiled_of_step stepped filed)

end OpenReports

/-! ## Runs without nesting -/

/-- The places of the closes that will be around a report, the outermost first, when so many reports
are open above it. -/
def enclosing : Nat → List Event → String
  | _, [] => ""
  | above, .opened :: events => enclosing (above + 1) events
  | above, .found _ :: events => enclosing above events
  | above, .checked _ _ :: events => enclosing above events
  | 0, .closed context :: events => enclosing 0 events ++ context
  | above + 1, .closed _ :: events => enclosing above events

/-- All findings of a run in the order in which they are produced, each with the places of the
closes around it. -/
def produced : List Event → List Finding
  | [] => []
  | event :: events =>
    event.findings.map (fun f => { f with message := enclosing 0 events ++ f.message }) ++
      produced events

/-- The places of the closes are put before messages as merging puts them there. -/
theorem produced_cons (event : Event) (events : List Event) :
    produced (event :: events) =
      event.findings.map (Finding.inContext (enclosing 0 events)) ++ produced events := rfl

/-- What open reports hold so far, from the lowest on, with the places that closes will put before
it. -/
def pending (severity : Severity) (events : List Event) : Nat → List Report → List Finding
  | _, [] => []
  | above, r :: below =>
    pending severity events (above + 1) below ++
      (r.filed severity).map (Finding.inContext (enclosing above events))

/-- What is pending depends on the closes around each report alone. -/
theorem pending_congr {events events' : List Event} {above above' : Nat}
    (same : ∀ n, enclosing (above + n) events = enclosing (above' + n) events')
    (severity : Severity) (rs : List Report) :
    pending severity events above rs = pending severity events' above' rs := by
  induction rs generalizing above above' with
  | nil => rfl
  | cons r rs ih =>
      have next : ∀ n, enclosing (above + 1 + n) events = enclosing (above' + 1 + n) events' := by
        intro n
        rw [Nat.add_assoc, Nat.add_assoc]
        exact same (1 + n)
      have here : enclosing above events = enclosing above' events' := same 0
      rw [pending, pending, ih next, here]

namespace OpenReports

/-- An event adds to what is pending the findings that it produces. -/
theorem pending_of_step {s s' : OpenReports} {event : Event} (stepped : s.step event = some s')
    (filed : ∀ r ∈ s.all, r.IsFiled) (events : List Event) (severity : Severity) :
    pending severity events 0 s'.all = pending severity (event :: events) 0 s.all ++
      (event.findings.map (Finding.inContext (enclosing 0 events))).filter
        fun f => f.kind = severity := by
  obtain ⟨current, below⟩ := s
  -- An event that files findings leaves the closes around every report as they are.
  have files (fs : List Finding)
      (skip : ∀ n, enclosing n (event :: events) = enclosing n events) :
      pending severity events 0 (current.pushAll fs :: below) =
        pending severity (event :: events) 0 (current :: below) ++
          (fs.map (Finding.inContext (enclosing 0 events))).filter fun f => f.kind = severity := by
    have lower (n : Nat) :
        enclosing (0 + 1 + n) (event :: events) = enclosing (0 + 1 + n) events := skip _
    rw [pending, pending, skip 0, Report.filed_pushAll, List.map_append, List.append_assoc,
      List.filter_map, pending_congr lower]
    rfl
  cases event with
  | opened =>
      obtain rfl := Option.some.inj stepped
      have deeper (n : Nat) : enclosing (0 + n) (.opened :: events) = enclosing (1 + n) events := by
        rw [enclosing, Nat.zero_add, Nat.add_comm]
      show pending severity events 1 (current :: below) ++ _ = _
      rw [pending_congr deeper]
      cases severity <;> rfl
  | found f =>
      obtain rfl := Option.some.inj stepped
      exact files [f] fun n => by rw [enclosing]
  | checked limits e =>
      obtain rfl := Option.some.inj stepped
      show pending severity events 0 (current.check limits e :: below) = _
      rw [Report.check_eq_pushAll]
      exact files _ fun n => by rw [enclosing]
  | closed context =>
      cases below with
      | nil => cases stepped
      | cons outer below =>
          obtain rfl := Option.some.inj stepped
          have moved (n : Nat) :
              enclosing (2 + n) (.closed context :: events) = enclosing (1 + n) events := by
            rw [show 2 + n = (1 + n) + 1 by omega, enclosing]
          have last : (current.filed severity).map
              (Finding.inContext (enclosing 0 (.closed context :: events))) =
                ((current.filed severity).map (Finding.inContext context)).map
                  (Finding.inContext (enclosing 0 events)) := by
            rw [enclosing, List.map_map]
            exact List.map_congr_left fun f _ => inContext_append _ _ f
          have isFiled : current.IsFiled := (List.forall_mem_cons.mp filed).1
          show pending severity events 1 below ++
              ((outer.merge current context).filed severity).map _ =
            ((pending severity (.closed context :: events) 2 below ++ _) ++ _) ++ []
          rw [pending_congr moved, last, Report.filed_merge outer isFiled, List.map_append,
            List.append_nil, List.append_assoc]
          rfl

/-- A run adds to what is pending all that it produces. -/
theorem pending_of_run {s s' : OpenReports} {events : List Event} (ran : s.run events = some s')
    (filed : ∀ r ∈ s.all, r.IsFiled) (severity : Severity) :
    pending severity [] 0 s'.all = pending severity events 0 s.all ++
      (produced events).filter fun f => f.kind = severity := by
  induction events generalizing s with
  | nil =>
      obtain rfl := Option.some.inj ran
      exact (List.append_nil _).symm
  | cons event events ih =>
      obtain ⟨next, stepped, rest⟩ := Option.bind_eq_some_iff.mp ran
      rw [ih rest (isFiled_of_step stepped filed), pending_of_step stepped filed, produced_cons,
        List.filter_append, List.append_assoc]

theorem isFiled_start : ∀ r ∈ start.all, r.IsFiled :=
  List.forall_mem_cons.mpr ⟨Report.isFiled_ofFindings [], List.forall_mem_nil _⟩

/-- When all other reports are closed, the first one holds what the run produced. -/
theorem current_of_run {s : OpenReports} {events : List Event} (ran : start.run events = some s)
    (done : s.below = []) : s.current = .ofFindings (produced events) := by
  apply Report.eq_of_filed
  intro severity
  have run := pending_of_run ran isFiled_start severity
  have nothing : pending severity events 0 start.all = [] := by cases severity <;> rfl
  have whole : pending severity [] 0 s.all = s.current.filed severity := by
    rw [all, done, pending, pending, List.nil_append, enclosing]
    rw [List.map_congr_left fun f _ => inContext_empty f, List.map_id']
  rw [← whole, run, nothing, List.nil_append, Report.filed_ofFindings]

end OpenReports

/-! ## Main statement -/

/--
A run goes on exactly as long as no more reports are closed than were opened. Then every open report
files errors as errors and warnings as warnings; all but the first one are closed exactly when as
many were closed as opened, and then this one holds all findings of the run as if each was filed
once, in the order in which they were produced and with the places of all closes around it before
its message. Behind this stands a law of merging for any reports, also such that file their findings
wrongly: a part may be merged through a report of its own, its findings are filed by their own
severity, with the place before the message and unchanged otherwise, and none is lost.
-/
theorem run_files_produced (events : List Event) :
    ((OpenReports.start.run events).isSome ↔ ∀ before, before <+: events →
      before.countP Event.isClosed ≤ before.countP Event.isOpened) ∧
    (∀ s, OpenReports.start.run events = some s →
      (∀ r ∈ s.all, (∀ f ∈ r.errors, f.kind = .error) ∧ ∀ f ∈ r.warnings, f.kind = .warning) ∧
      (s.below = [] ↔ events.countP Event.isOpened = events.countP Event.isClosed) ∧
      (s.below = [] → s.current = Report.empty.pushAll (produced events))) ∧
    (∀ limits e, Report.empty.check limits e = elementReport limits e) ∧
    ∀ (a b : Report) (c d : String),
      a.merge (Report.empty.merge b c) d = a.merge b (d ++ c) ∧
      (a.merge b c).errors =
        a.errors ++ ((b.errors ++ b.warnings).filter fun f => f.kind = .error).map (fun f =>
          { f with message := c ++ f.message }) ∧
      (a.merge b c).warnings =
        a.warnings ++ ((b.errors ++ b.warnings).filter fun f => f.kind = .warning).map (fun f =>
          { f with message := c ++ f.message }) ∧
      (a.merge b c).findings.length = a.findings.length + b.findings.length := by
  refine ⟨?_, ?_, Report.check_empty, ?_⟩
  · have goesOn := OpenReports.isSome_run_iff .start events
    simpa [OpenReports.start] using goesOn
  · intro s ran
    refine ⟨?_, ?_, OpenReports.current_of_run ran⟩
    · intro r member
      have filed := OpenReports.isFiled_of_run ran OpenReports.isFiled_start r member
      exact ⟨filed .error, filed .warning⟩
    · have counted := OpenReports.length_below_of_run ran
      rw [← List.length_eq_zero_iff]
      simp only [OpenReports.start, List.length_nil, Nat.zero_add] at counted
      omega
  · intro a b c d
    refine ⟨a.merge_merge b c d, a.filed_merge_any b c .error, a.filed_merge_any b c .warning, ?_⟩
    rw [Report.merge, Report.length_findings_pushAll, List.length_map]

-- A close that stands around another puts its place in front.
example (f g : Finding) :
    produced [.opened, .found f, .opened, .found g, .closed "In: ", .closed "Out: "] =
      [{ f with message := "Out: " ++ f.message },
        { g with message := "Out: In: " ++ g.message }] := rfl

end ScreenFlow.Review
