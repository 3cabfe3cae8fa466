import ScreenFlow.Files
import ScreenFlow.Proofs.Design.Payloads
import ScreenFlow.Proofs.Flow.Texts
import ScreenFlow.Proofs.Navigation

/-!
# Documents that are stored and loaded again

A document that is compiled from a snapshot is proper, since everything in the snapshot is. So it is
loaded from its own text, compact or indented, as long as that is not nested too deep. The snapshot
is no guard against that: a document wraps more levels around a payload than the snapshot does.
-/

namespace ScreenFlow.Compile

open ScreenFlow.Codec ScreenFlow.Json
open ScreenFlow.Design (Element Screen parseScreens)
open ScreenFlow.Flow (Node Document)

/-! ## Proper documents -/

/-- A footer submits proper values: references, and entries of a proper payload. -/
theorem all_footerPayload {action : Design.Action} (proper : action.IsProper) (ctx : Context) :
    (Value.object (footerPayload action ctx)).All Value.IsProper := by
  have reference (scope name : String) : (reference scope name).All Value.IsProper :=
    (Value.all_string _).mpr ⟨trivial, trivial⟩
  have references (fields : List Design.NamedField) (scope : String) :
      ∀ e ∈ fields.map fun f => (f.name, Compile.reference scope f.name),
        e.2.All Value.IsProper :=
    List.forall_mem_map.mpr fun f _ => reference scope f.name
  have own : ∀ e ∈ action.payload.getD [], e.2.All Value.IsProper := by
    cases set : action.payload with
    | none => exact List.forall_mem_nil _
    | some payload => exact ((Value.all_object payload).mp (proper payload set)).2
  have form : ∀ e ∈ Entries.putAllNew ([] : Entries Value)
      (ctx.currentFields.map fun f => (f.name, formReference f.name)), e.2.All Value.IsProper := by
    intro e member
    rcases Entries.mem_of_mem_putAllNew member with old | new
    · exact absurd old List.not_mem_nil
    · exact references ctx.currentFields "form" e new
  -- Distinct keys do not depend on the design: every entry is put under a new one.
  have keys := nodup_keys_footerPayload action ctx
  refine (Value.all_object _).mpr ⟨⟨keys, trivial⟩, ?_⟩
  intro e member
  unfold footerPayload at member
  rcases Entries.mem_of_mem_putAllNew member with submitted | ofDesign
  · split at submitted
    · rcases Entries.mem_of_mem_putAllNew submitted with current | prior
      · exact form e current
      · exact references ctx.priorFields "data" e prior
    · exact form e submitted
  · exact own e ofDesign

theorem isProper_mapActionOf {action : Design.Action} (proper : action.IsProper) (ctx : Context)
    (e : Element) : (mapActionOf ctx e action).IsProper := by
  -- Actions of other elements, and other actions of footers, keep their payload.
  have plain : (mapAction action).IsProper := proper
  unfold mapActionOf
  split
  · have footer : Flow.Action.IsProper
        { mapAction action with payload := some (footerPayload action ctx) } := by
      intro payload member
      cases member
      exact all_footerPayload proper ctx
    unfold mapFooterAction
    split
    · exact footer
    · exact footer
    · exact plain
  · exact plain

/-- The node of a proper element is proper. -/
theorem isProperHere_mapElement {e : Element} (proper : e.IsProperHere) (ctx : Context) :
    (mapElement ctx e).IsProperHere := by
  cases e with
  | widget w =>
      have actions := actions_mapElement ctx (.widget w)
      show ∀ a ∈ (mapElement ctx (.widget w)).actions, a.IsProper
      rw [actions, List.forall_mem_map]
      intro action member
      exact isProper_mapActionOf (proper action member) ctx (.widget w)
  | ifBlock condition thenBranch elseBranch => exact trivial
  | switchBlock value cases =>
      rw [mapElement_switchBlock]
      show (Entries.keys (cases.map fun c => (c.1, c.2.map (mapElement ctx)))).Nodup
      rw [Entries.keys, List.map_map]
      exact proper

/-- A screen whose elements are proper is compiled to a proper screen. -/
theorem isProper_compileScreen (previous : List Screen) {s : Screen}
    (proper : ∀ e ∈ s.walk, e.IsProperHere) : (compileScreen previous s).IsProper where
  data data member := by
    have declared : data ∈ (screenSchema s (collectNamedFields previous)).data := member
    unfold screenSchema at declared
    split at declared
    · cases declared
      exact List.nodup_nil
    · unfold inheritedSchema at declared
      dsimp only at declared
      split at declared
      · cases declared
      · cases declared
        exact Entries.nodup_keys_ofMembers _
  nodes := by
    refine (forall_walkList_compileScreen (P := Node.IsProperHere) ?_ previous s).mpr ?_
    · intro name children
      exact trivial
    · intro e inside
      exact isProperHere_mapElement (proper e inside) _

theorem isProper_compileScreens (previous : List Screen) {screens : List Screen}
    (proper : ∀ s ∈ screens, ∀ e ∈ s.walk, e.IsProperHere) :
    ∀ w ∈ compileScreens previous screens, w.IsProper := by
  induction screens generalizing previous with
  | nil => simp [compileScreens]
  | cons s screens ih =>
      obtain ⟨first, others⟩ := List.forall_mem_cons.mp proper
      rw [compileScreens]
      exact List.forall_mem_cons.mpr ⟨isProper_compileScreen previous first, ih _ others⟩

/-- Screens whose elements are proper are compiled to a proper document. -/
theorem isProper_compileFlow {screens : List Screen} {d : Document}
    (proper : ∀ s ∈ screens, ∀ e ∈ s.walk, e.IsProperHere)
    (compiled : compileFlow screens = .ok d) : d.IsProper := by
  unfold compileFlow at compiled
  split at compiled
  · cases compiled
  · cases compiled
    refine ⟨?_, isProper_compileScreens [] proper⟩
    intro model member
    dsimp only [routingModel] at member
    split at member
    · cases member
    · cases member
      exact Entries.nodup_keys_ofMembers _

end ScreenFlow.Compile

namespace ScreenFlow

/-! ## Files -/

/-- A path that can be written leads to the same entry when it is read. -/
theorem Files.locate_reading {names : List String} {path name : String}
    (writable : locate names .writing path = .ok name) : locate names .reading path = .ok name := by
  -- Writing asks for more than reading, and both lead to the same name.
  unfold locate at writable ⊢
  dsimp only at writable ⊢
  split at writable
  · split at writable
    · cases writable
    · split at writable <;> cases writable
  · split at writable
    · cases writable
    · rename_i short
      split at writable
      · cases writable
      · rw [if_neg short, if_neg (by simp)]
        exact writable

/-- A document that is saved is loaded from the text that was written. -/
theorem loadDocument_saveDocument {contents : Entries String} {path : String} {d : Flow.Document}
    {files : Files} (saved : saveDocument (.ofDirectory contents) path d = .ok files) :
    loadDocument files path = parseDocument (d.toText true) := by
  have written := Codec.mapError_eq_ok_iff.mp saved
  obtain ⟨name, target, made⟩ := Codec.bind_eq_ok_iff.mp written
  cases made
  have source : Files.locate contents.keys .reading path = .ok name := Files.locate_reading target
  simp only [loadDocument, Files.read, Files.ofDirectory, source, Entries.get?_put_self, bind,
    Except.bind, pure, Except.pure, Except.mapError]

end ScreenFlow

namespace ScreenFlow.Compile

open ScreenFlow.Codec ScreenFlow.Json
open ScreenFlow.Design (Screen Snapshot parseScreens)
open ScreenFlow.Flow (Document)

/-! ## Main statement -/

/--
Screens with distinct ids that are read from a snapshot compile to a document. If that is nested no
deeper than a text may be, it is loaded from both forms of its text and from every file that it is
saved to. If it is nested deeper, it can still be written and saved, but never be loaded again.
-/
theorem compileFlow_stored {text : String} {screens : List Screen}
    (parsed : parseScreens text = .ok screens) (distinct : (screens.map Screen.id).Nodup) :
    ∃ d, compileFlow screens = .ok d ∧ (d.HasReadableFloats →
      (d.depth ≤ maxDepth →
        (∀ indented, Document.ofText (d.toText indented) = .ok d) ∧
        ∀ contents path files, saveDocument (.ofDirectory contents) path d = .ok files →
          loadDocument files path = .ok d) ∧
      (maxDepth < d.depth →
        (∀ indented, ∃ fault, Document.ofText (d.toText indented) = .error fault) ∧
        ∀ contents path files, saveDocument (.ofDirectory contents) path d = .ok files →
          ∃ fault, loadDocument files path = .error (.malformed fault))) := by
  have compiled := compileFlow_of_nodup distinct
  refine ⟨_, compiled, ?_⟩
  intro readable
  have proper := isProper_compileFlow (Design.isProperHere_of_parseScreens parsed) compiled
  -- From here on nothing is used of the document but that it is proper.
  generalize (⟨Flow.version, routingModel screens, compileScreens [] screens⟩ : Document) = d at *
  have stored := Document.ofText_toText_of_isProper proper readable
  constructor
  · intro fits
    refine ⟨fun indented => (stored indented).1 fits, ?_⟩
    intro contents path files saved
    rw [loadDocument_saveDocument saved, parseDocument, (stored true).1 fits]
    rfl
  · intro deep
    refine ⟨fun indented => (stored indented).2 deep, ?_⟩
    intro contents path files saved
    obtain ⟨fault, refused⟩ := (stored true).2 deep
    refine ⟨fault, ?_⟩
    rw [loadDocument_saveDocument saved, parseDocument, refused]
    rfl

/-- An array around an array, and so on, to a level. -/
def nested : Nat → Value
  | 0 => .null
  | level + 1 => .array [nested level]

/-- A snapshot with a link that has a deep payload. -/
def deepLink : Value :=
  .array [.object [("id", .string "START"), ("elements", .array [.object [
    ("type", .string "EmbeddedLink"), ("text", .string "More"),
    ("onClickAction", .object [
      ("name", .string "open_url"), ("payload", .object [("data", nested 120)])])]])]]

/-- The snapshot is read, and all is well with its document but the depth. -/
private theorem deepLink_compiles : ∃ screens d,
    parseScreens (deepLink.render false) = .ok screens ∧ (screens.map Screen.id).Nodup ∧
      compileFlow screens = .ok d ∧ d.HasReadableFloats ∧ maxDepth < d.depth := by
  have readsBack : deepLink.All Value.ReadsBack := by decide +kernel
  -- Reading the characters one by one is left to the general theorem; the rest is evaluated.
  have tree : Tree.parse? (deepLink.render false) = some (deepLink.treeWithin maxDepth) :=
    Tree.parse?_render readsBack false
  have evaluated : (Snapshot.decode (deepLink.treeWithin maxDepth)).toOption.any (fun snapshot =>
      snapshot.read.toOption.any fun screens => (compileFlow screens).toOption.any fun d =>
        decide ((screens.map Screen.id).Nodup ∧ d.HasReadableFloats ∧ maxDepth < d.depth)) := by
    decide +kernel
  obtain ⟨snapshot, decoded, evaluated⟩ := (Option.any_eq_true _ _).mp evaluated
  obtain ⟨screens, read, evaluated⟩ := (Option.any_eq_true _ _).mp evaluated
  obtain ⟨d, compiled, evaluated⟩ := (Option.any_eq_true _ _).mp evaluated
  obtain ⟨distinct, readable, deep⟩ := of_decide_eq_true evaluated
  refine ⟨screens, d, ?_, distinct, eq_ok_of_toOption compiled, readable, deep⟩
  rw [parseScreens, Snapshot.ofText, tree]
  dsimp only
  rw [eq_ok_of_toOption decoded]
  exact eq_ok_of_toOption read

/-- The document of the snapshot is written and saved, but cannot be loaded in any form. -/
theorem deepLink_is_lost : ∃ screens d, parseScreens (deepLink.render false) = .ok screens ∧
    compileFlow screens = .ok d ∧ d.HasReadableFloats ∧
      ∀ indented, ∃ fault, Document.ofText (d.toText indented) = .error fault := by
  obtain ⟨screens, d, parsed, distinct, compiled, readable, deep⟩ := deepLink_compiles
  obtain ⟨d', compiled', stored⟩ := compileFlow_stored parsed distinct
  obtain rfl : d = d' := Except.ok.inj (compiled.symm.trans compiled')
  exact ⟨screens, d, parsed, compiled, readable, ((stored readable).2 deep).1⟩

end ScreenFlow.Compile
