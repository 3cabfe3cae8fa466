import Mathlib.Data.Finset.Card
import ScreenFlow.Proofs.Navigation
import ScreenFlow.Proofs.Review.Truth

/-!
# Ids of screens

The compiler stops at the first screen whose id was seen before, a review names every such screen,
and a document is asked for its screens by their ids. All three agree whichever ids are repeated and
however often: the compiler goes through exactly when the review finds no id repeated, otherwise
both name the same screen first, and in the document each id leads to the screen it was given to.
-/

namespace ScreenFlow

variable {α : Type}

/-! ## Repeats -/

/-- The first repeat is the first element whose key stands before it. -/
theorem exists_of_head?_repeatsFrom {key : α → String} {seen : List String} {as : List α} {a : α}
    (first : (repeatsFrom key seen as).head? = some a) :
    ∃ before after, as = before ++ a :: after ∧ (before.map key).Nodup ∧
      (∀ k ∈ before.map key, k ∉ seen) ∧ (key a ∈ before.map key ∨ key a ∈ seen) := by
  induction as generalizing seen with
  | nil => cases first
  | cons b as ih =>
      rw [repeatsFrom] at first
      by_cases again : key b ∈ seen
      · rw [if_pos again] at first
        obtain rfl := Option.some.inj first
        exact ⟨[], as, rfl, List.nodup_nil, List.forall_mem_nil _, .inr again⟩
      · rw [if_neg again] at first
        obtain ⟨before, after, rfl, distinct, fresh, repeated⟩ := ih first
        refine ⟨b :: before, after, rfl, ?_, ?_, ?_⟩
        · rw [List.map_cons, List.nodup_cons]
          exact ⟨fun member => fresh _ member List.mem_cons_self, distinct⟩
        · rw [List.map_cons, List.forall_mem_cons]
          exact ⟨again, fun k member old => fresh k member (List.mem_cons_of_mem _ old)⟩
        · rw [List.map_cons, List.mem_cons]
          rcases repeated with inside | old
          · exact .inl (.inr inside)
          · exact (List.mem_cons.mp old).imp .inl id

theorem exists_of_head?_repeats {key : α → String} {as : List α} {a : α}
    (first : (repeats key as).head? = some a) :
    ∃ before after, as = before ++ a :: after ∧ (before.map key).Nodup ∧
      key a ∈ before.map key := by
  obtain ⟨before, after, split, distinct, -, repeated⟩ := exists_of_head?_repeatsFrom first
  exact ⟨before, after, split, distinct, repeated.resolve_right List.not_mem_nil⟩

/-- Every key has one first element. -/
theorem card_keys (key : α → String) (as : List α) :
    (as.map key).toFinset.card = (firsts key as).length := by
  have same : (as.map key).toFinset = ((firsts key as).map key).toFinset := by
    ext k
    rw [List.mem_toFinset, List.mem_toFinset, mem_map_firsts]
  rw [same, List.toFinset_card_of_nodup (nodup_map_firsts key as), List.length_map]

/-- All elements but one for each key are repeats. -/
theorem length_repeats (key : α → String) (as : List α) :
    (repeats key as).length = as.length - (as.map key).toFinset.card := by
  have all := length_firsts_add_repeats key as
  rw [card_keys]
  omega

end ScreenFlow

namespace ScreenFlow.Flow.Document

/-! ## Asking for screens -/

/-- Asking for an id finds the one screen that has it. -/
theorem screen?_eq_some_iff {d : Document} (distinct : (d.screens.map Screen.id).Nodup)
    {id : String} {s : Screen} : d.screen? id = some s ↔ s ∈ d.screens ∧ s.id = id := by
  rw [screen?]
  constructor
  · intro found
    exact ⟨List.mem_of_find?_eq_some found, by simpa using List.find?_some found⟩
  · rintro ⟨member, rfl⟩
    cases found : d.screens.find? fun t => t.id == s.id with
    | none => exact absurd (beq_self_eq_true s.id) (List.find?_eq_none.mp found s member)
    | some t =>
        have same : t.id = s.id := by simpa using List.find?_some found
        rw [List.inj_on_of_nodup_map distinct (List.mem_of_find?_eq_some found) member same]

theorem screen?_eq_none_iff {d : Document} {id : String} :
    d.screen? id = none ↔ id ∉ d.screens.map Screen.id := by
  rw [screen?, List.find?_eq_none, List.mem_map, not_exists]
  apply forall_congr'
  intro s
  rw [not_and, beq_iff_eq]

end ScreenFlow.Flow.Document

namespace ScreenFlow.Review

open ScreenFlow.Design (Screen)

/-! ## What a review says of ids -/

/-- The findings of a report that are references on the ids of screens. -/
def Report.onIds (report : Report) : List Finding :=
  report.findings.filter fun f => f.code = .invalidReference ∧ f.field = some "id"

/-- A review finds fault with the ids that are repeated, and with no others. -/
theorem onIds_documentReport (limits : Limits) (screens : List Screen) :
    (documentReport limits screens).onIds = repeatedIds screens := by
  have errors : ∀ f ∈ producedByDocument limits screens,
      decide (f.code = .invalidReference ∧ f.field = some "id") = true → f.kind = .error :=
    fun f member onId =>
      (isTruthful_of_mem_producedByDocument f member).reference (of_decide_eq_true onId).1
  have ids : (repeatedIds screens).filter (fun f =>
      f.code = .invalidReference ∧ f.field = some "id") = repeatedIds screens := by
    rw [List.filter_eq_self, repeatedIds, List.forall_mem_map]
    exact fun s _ => rfl
  have targets : (screens.flatMap (missingTargets (screens.map Screen.id))).filter (fun f =>
      f.code = .invalidReference ∧ f.field = some "id") = [] := by
    rw [List.filter_eq_nil_iff, List.forall_mem_flatMap]
    intro s _
    rw [missingTargets, List.forall_mem_map]
    intro target _ onId
    have field : some "onClickAction" = some "id" := (of_decide_eq_true onId).2
    exact absurd field (by decide)
  rw [Report.onIds, documentReport_eq_ofFindings, Report.filter_findings_ofFindings errors,
    filter_produced_of_reference _ _ fun f onId => (of_decide_eq_true onId).1,
    referenceFindings, List.filter_append, ids, targets, List.append_nil]

end ScreenFlow.Review

namespace ScreenFlow.Compile

open ScreenFlow.Design (Screen)
open ScreenFlow.Review (Finding Limits documentReport onIds_documentReport repeatedIds)

/-! ## Main statement -/

/-- The compiler goes through exactly when no id is repeated. -/
theorem compileFlow_ok_iff_repeats {screens : List Screen} :
    (∃ d, compileFlow screens = .ok d) ↔ repeats Screen.id screens = [] := by
  rw [compileFlow, firstRepeatedId_eq, ← List.head?_eq_none_iff]
  cases (repeats Screen.id screens).head? with
  | none => exact iff_of_true ⟨_, rfl⟩ rfl
  | some again =>
      refine iff_of_false ?_ (Option.some_ne_none again)
      rintro ⟨d, compiled⟩
      cases compiled

/-- Otherwise it stops at the first repeat. -/
theorem head?_repeats_of_compileFlow_error {screens : List Screen} {error : CompileError}
    (stopped : compileFlow screens = .error error) :
    ∃ again, (repeats Screen.id screens).head? = some again ∧
      error = .duplicateScreenId again.id := by
  rw [compileFlow, firstRepeatedId_eq] at stopped
  cases first : (repeats Screen.id screens).head? with
  | none =>
      rw [first] at stopped
      cases stopped
  | some again =>
      rw [first] at stopped
      exact ⟨again, rfl, (Except.error.inj stopped).symm⟩

/--
Screens compile exactly when their ids are distinct. Otherwise the compiler names the id of the
first screen whose id stands before it, and the first of the references on ids in a review names the
same one; the review has as many of them as there are more screens than ids, so none exactly when
the screens compile. The document then has the screens in order, under their ids and titles, and
asking it for an id gives what was compiled from the screen of that id, and nothing for all others.
-/
theorem compileFlow_ok_iff_nodup_ids (limits : Limits) (screens : List Screen) :
    ((∃ d, compileFlow screens = .ok d) ↔ (screens.map Screen.id).Nodup) ∧
      (∀ error, compileFlow screens = .error error → ∃ before again after,
        screens = before ++ again :: after ∧ (before.map Screen.id).Nodup ∧
          again.id ∈ before.map Screen.id ∧ error = .duplicateScreenId again.id ∧
          (documentReport limits screens).onIds.head? = some
            ⟨.error, .invalidReference, "Screen id \"" ++ again.id ++
              "\" is used by more than one screen", some "id", none, none⟩) ∧
      (documentReport limits screens).onIds.length =
        screens.length - (screens.map Screen.id).toFinset.card ∧
      ((documentReport limits screens).onIds = [] ↔ ∃ d, compileFlow screens = .ok d) ∧
      ∀ d, compileFlow screens = .ok d → d.screens.length = screens.length ∧
        (∀ (i : Nat) (s : Screen), screens[i]? = some s → ∃ w,
          w = compileScreen (screens.take i) s ∧ w.id = s.id ∧ w.title = s.title ∧
            d.screens[i]? = some w ∧ d.screen? s.id = some w) ∧
        ∀ id ∉ screens.map Screen.id, d.screen? id = none := by
  rw [onIds_documentReport]
  refine ⟨?_, ?_, ?_, ?_, ?_⟩
  · rw [compileFlow_ok_iff_repeats, repeats_eq_nil_iff]
  · intro error stopped
    obtain ⟨again, first, rfl⟩ := head?_repeats_of_compileFlow_error stopped
    obtain ⟨before, after, split, distinct, repeated⟩ := exists_of_head?_repeats first
    refine ⟨before, again, after, split, distinct, repeated, rfl, ?_⟩
    rw [repeatedIds, List.head?_map, first, Option.map_some]
    rfl
  · rw [repeatedIds, List.length_map, length_repeats]
  · rw [compileFlow_ok_iff_repeats, repeatedIds, List.map_eq_nil_iff]
  · intro d compiled
    have distinct : (screens.map Screen.id).Nodup :=
      (repeats_eq_nil_iff _ _).mp (compileFlow_ok_iff_repeats.mp ⟨d, compiled⟩)
    have screensOf : d.screens = compileScreens [] screens := by
      rw [compileFlow_of_nodup distinct] at compiled
      rw [← Except.ok.inj compiled]
    have idsOf : d.screens.map Flow.Screen.id = screens.map Screen.id := by
      rw [screensOf, map_id_compileScreens]
    refine ⟨by rw [screensOf, length_compileScreens], ?_, ?_⟩
    · intro i s here
      have place : d.screens[i]? = some (compileScreen (screens.take i) s) := by
        rw [screensOf, getElem?_compileScreens, here, List.nil_append, Option.map_some]
      refine ⟨_, rfl, rfl, rfl, place, ?_⟩
      rw [Flow.Document.screen?_eq_some_iff (idsOf.symm ▸ distinct)]
      exact ⟨List.mem_of_getElem? place, rfl⟩
    · intro id unknown
      rwa [Flow.Document.screen?_eq_none_iff, idsOf]

/-- Five screens under two ids. -/
def sharedIds : List Screen :=
  ["FROM", "TO", "TO", "FROM", "FROM"].map fun id => ⟨id, id, []⟩

-- The first repeat is of the second id, and all three repeats are found.
example : compileFlow sharedIds = .error (.duplicateScreenId "TO") ∧
    (repeats Screen.id sharedIds).map Screen.id = ["TO", "FROM", "FROM"] :=
  ⟨rfl, by decide⟩

end ScreenFlow.Compile
