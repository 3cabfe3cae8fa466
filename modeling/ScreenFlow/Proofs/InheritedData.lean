import ScreenFlow.Proofs.FooterPayload

/-!
# Inherited data

A screen that completes the flow declares empty data. Every other screen declares the fields of the
screens before it, each with the sample of the element that declares it first, so what is declared
only grows from one screen to a later one, and only at its end.
-/

namespace ScreenFlow.Flow

/-- A footer of a screen, at some depth, completes the flow. -/
def Screen.Completes (w : Screen) : Prop :=
  ∃ f ∈ w.footers, ∃ action ∈ f.onClickAction, action.name = .complete

instance (w : Screen) : Decidable w.Completes :=
  inferInstanceAs (Decidable (∃ f ∈ w.footers, ∃ action ∈ f.onClickAction,
    action.name = .complete))

end ScreenFlow.Flow

namespace ScreenFlow.Design

/-- The first element of screens, in their order and at every depth, that declares a field name. -/
def declaring? (screens : List Screen) (name : String) : Option Element :=
  (screens.flatMap Screen.walk).find? fun e => e.fieldName? == some name

theorem Element.completesFlow_iff {e : Element} :
    e.completesFlow = true ↔
      ∃ f, e.footer? = some f ∧ ∃ action ∈ f.onClickAction, action.name = .complete := by
  cases e with
  | widget w =>
      cases w with
      | footer f =>
          show f.completesFlow = true ↔ _
          rw [Footer.completesFlow]
          cases set : f.onClickAction <;> simp [Element.footer?, set]
      | _ => simp [completesFlow, footer?]
  | ifBlock => simp [completesFlow, footer?]
  | switchBlock => simp [completesFlow, footer?]

/-- No screen declares a field without a name. -/
theorem ne_empty_of_mem_declaredNames {s : Screen} {name : String}
    (declared : name ∈ s.declaredNames) : name ≠ "" := by
  obtain ⟨e, -, given⟩ := List.mem_filterMap.mp declared
  intro blank
  subst blank
  cases e with
  | widget w =>
      obtain ⟨-, filled⟩ := Option.filter_eq_some_iff.mp given
      cases filled
  | ifBlock => cases given
  | switchBlock => cases given

end ScreenFlow.Design

namespace ScreenFlow.Compile

open ScreenFlow.Design (Element NamedField Screen declaring?)

/-! ## Terminal screens -/

/-- What is seen of a compiled screen is what the compiler asks its design. -/
theorem completes_compileScreen (previous : List Screen) (s : Screen) :
    (compileScreen previous s).Completes ↔ s.isTerminal = true := by
  have sameFooters : ∀ f, f ∈ s.shownFooters ↔ ∃ e ∈ s.walk, e.footer? = some f := by
    intro f
    rw [(Design.shownFooters_perm s).mem_iff, List.mem_filterMap]
  rw [Flow.Screen.Completes, footers_compileScreen, Screen.isTerminal, List.any_eq_true]
  constructor
  · rintro ⟨_, shown, mapped, set, completes⟩
    obtain ⟨f, among, rfl⟩ := List.mem_map.mp shown
    obtain ⟨e, inside, isFooter⟩ := (sameFooters f).mp among
    obtain ⟨action, own, rfl⟩ := Option.map_eq_some_iff.mp set
    rw [name_mapFooterAction] at completes
    exact ⟨e, inside, Element.completesFlow_iff.mpr ⟨f, isFooter, action, own, completes⟩⟩
  · rintro ⟨e, inside, completes⟩
    obtain ⟨f, isFooter, action, own, name⟩ := Element.completesFlow_iff.mp completes
    refine ⟨_, List.mem_map_of_mem ((sameFooters f).mpr ⟨e, inside, isFooter⟩), ?_⟩
    refine ⟨_, Option.map_eq_some_iff.mpr ⟨action, own, rfl⟩, ?_⟩
    rw [name_mapFooterAction, name]

/-- A compiled screen that completes the flow says so and declares empty data. -/
theorem compileScreen_of_completes {previous : List Screen} {s : Screen}
    (completes : (compileScreen previous s).Completes) :
    (compileScreen previous s).terminal = some true ∧
      (compileScreen previous s).success = some true ∧
        (compileScreen previous s).data = some [] := by
  rw [completes_compileScreen] at completes
  simp [compileScreen, screenSchema, completes]

/-- Any other compiled screen declares what it inherits. -/
theorem compileScreen_of_not_completes {previous : List Screen} {s : Screen}
    (goesOn : ¬(compileScreen previous s).Completes) :
    (compileScreen previous s).terminal = none ∧ (compileScreen previous s).success = none ∧
      (compileScreen previous s).data = inheritedSchema (collectNamedFields previous) := by
  rw [completes_compileScreen] at goesOn
  simp [compileScreen, screenSchema, goesOn, Context.ofScreen]

/-! ## What is inherited -/

/-- The fields of screens are the first ones among those of all elements, whichever screen they
are on. -/
theorem collectNamedFields_eq (screens : List Screen) :
    collectNamedFields screens =
      firsts NamedField.name ((screens.flatMap Screen.walk).filterMap Element.namedField?) := by
  rw [List.filterMap_flatMap]
  exact firsts_flatMap_firsts NamedField.name _ screens

/-- The field of a name is declared by the first element that gives this name. -/
theorem find?_collectNamedFields (screens : List Screen) (name : String) :
    ((collectNamedFields screens).find? fun f => f.name == name) =
      (declaring? screens name).map fun e => ⟨name, e.kind⟩ := by
  -- Among elements, to give a field of this name is to give this name.
  have asked (e : Element) : (e.namedField?.any fun f => f.name == name) =
      (e.fieldName? == some name) := by
    rw [Element.namedField?]
    cases e.fieldName? <;> simp
  rw [collectNamedFields_eq, find?_firsts, List.find?_filterMap, declaring?]
  simp only [asked]
  cases found : (screens.flatMap Screen.walk).find? fun e => e.fieldName? == some name with
  | none => rfl
  | some e =>
      have gives : e.fieldName? = some name := by simpa using List.find?_some found
      rw [Option.bind_some, Element.namedField?, gives]
      rfl

/-- Under each name stands the sample of the first element that gives this name. -/
theorem get?_inheritedSchema (screens : List Screen) (name : String) :
    Entries.get? ((inheritedSchema (collectNamedFields screens)).getD []) name =
      (declaring? screens name).map fun e => Flow.DataField.string (e.kind.sample?.getD "") := by
  rw [getD_inheritedSchema (nodup_collectNamedFields screens), Entries.get?, List.find?_map,
    Option.map_map]
  show Option.map _ ((collectNamedFields screens).find? fun f => f.name == name) = _
  rw [find?_collectNamedFields, Option.map_map]
  rfl

/-- There is something to inherit exactly when a name is declared. -/
theorem inheritedSchema_eq_none_iff (screens : List Screen) :
    inheritedSchema (collectNamedFields screens) = none ↔
      screens.flatMap Screen.declaredNames = [] := by
  have noNames : firsts id (screens.flatMap Screen.declaredNames) = [] ↔
      screens.flatMap Screen.declaredNames = [] := by
    cases screens.flatMap Screen.declaredNames <;> simp [firsts, firstsFrom]
  rw [← noNames, ← map_name_collectNamedFields, List.map_eq_nil_iff,
    inheritedSchema_eq (nodup_collectNamedFields screens)]
  cases collectNamedFields screens <;> simp

/-- Whoever comes after more screens inherits the same and perhaps more behind it. -/
theorem inheritedSchema_prefix {screens more : List Screen} (starts : screens <+: more) :
    (inheritedSchema (collectNamedFields screens)).getD [] <+:
      (inheritedSchema (collectNamedFields more)).getD [] := by
  have fields : collectNamedFields screens <+: collectNamedFields more := by
    obtain ⟨later, rfl⟩ := starts
    exact firsts_prefix NamedField.name ⟨_, List.flatMap_append.symm⟩
  rw [getD_inheritedSchema (nodup_collectNamedFields screens),
    getD_inheritedSchema (nodup_collectNamedFields more)]
  exact fields.map _

theorem inheritedSchema_ne_some_nil (screens : List Screen) :
    inheritedSchema (collectNamedFields screens) ≠ some [] := by
  rw [inheritedSchema_eq (nodup_collectNamedFields screens)]
  cases collectNamedFields screens <;> simp

/-! ## Main statement -/

/--
In the document of screens with distinct ids exactly those screens in which a footer completes the
flow are terminal and declare empty data. Every other screen declares the names that elements of the
screens before it give, at every depth and in the order in which they come first, each as a text
with the sample of the first element that gives it; where no name is given nothing is declared. So
the data of such a screen is the beginning of the data of every such screen after it, and never
empty.
-/
theorem compileFlow_inherits (screens : List Screen) (distinct : (screens.map Screen.id).Nodup) :
    ∃ d, compileFlow screens = .ok d ∧ d.screens.length = screens.length ∧
      (∀ (i : Nat) (w : Flow.Screen), d.screens[i]? = some w →
        let earlier := screens.take i
        let names := earlier.flatMap Screen.declaredNames
        (w.terminal = some true ∧ w.success = some true ∧ w.data = some [] ↔ w.Completes) ∧
          (¬w.Completes → w.terminal = none ∧ w.success = none ∧ (w.data = none ↔ names = []) ∧
            ∀ data ∈ w.data, data.keys = firsts id names ∧ (∀ name ∈ data.keys, name ≠ "") ∧
              ∀ name, data.get? name = (declaring? earlier name).map fun e =>
                ⟨"string", e.kind.sample?.getD ""⟩)) ∧
      (∀ (i j : Nat) (v w : Flow.Screen), i < j → d.screens[i]? = some v →
        d.screens[j]? = some w → ¬v.Completes → ¬w.Completes →
          v.data.getD [] <+: w.data.getD []) ∧
      ∀ w ∈ d.screens, ¬w.Completes → w.data ≠ some [] := by
  refine ⟨_, compileFlow_of_nodup distinct, length_compileScreens [] screens, ?_, ?_, ?_⟩
  · intro i w compiled earlier names
    obtain ⟨s, -, rfl⟩ := exists_of_getElem?_compileScreens compiled
    constructor
    · constructor
      · rintro ⟨terminal, -, -⟩
        by_contra goesOn
        rw [(compileScreen_of_not_completes goesOn).1] at terminal
        cases terminal
      · exact compileScreen_of_completes
    · intro goesOn
      obtain ⟨terminal, success, inherited⟩ := compileScreen_of_not_completes goesOn
      refine ⟨terminal, success, ?_, ?_⟩
      · rw [inherited]
        exact inheritedSchema_eq_none_iff earlier
      · intro data declared
        have isData : (inheritedSchema (collectNamedFields earlier)).getD [] = data := by
          rw [← inherited, declared, Option.getD_some]
        have keys : data.keys = firsts id names := by
          rw [← isData, keys_inheritedSchema (nodup_collectNamedFields earlier),
            map_name_collectNamedFields]
        refine ⟨keys, ?_, ?_⟩
        · intro name key
          rw [keys] at key
          obtain ⟨t, -, given⟩ :=
            List.mem_flatMap.mp ((firstsFrom_sublist id [] names).subset key)
          exact Design.ne_empty_of_mem_declaredNames given
        · intro name
          rw [← isData, get?_inheritedSchema]
          rfl
  · intro i j v w before first second firstGoesOn secondGoesOn
    obtain ⟨s, -, rfl⟩ := exists_of_getElem?_compileScreens first
    obtain ⟨t, -, rfl⟩ := exists_of_getElem?_compileScreens second
    rw [(compileScreen_of_not_completes firstGoesOn).2.2,
      (compileScreen_of_not_completes secondGoesOn).2.2]
    exact inheritedSchema_prefix (List.take_prefix_take_left (Nat.le_of_lt before))
  · intro w member goesOn
    obtain ⟨i, compiled⟩ := List.mem_iff_getElem?.mp member
    obtain ⟨s, -, rfl⟩ := exists_of_getElem?_compileScreens compiled
    rw [(compileScreen_of_not_completes goesOn).2.2]
    exact inheritedSchema_ne_some_nil _

/-- Four screens: a name that is given again as another kind, one in a branch, one that is empty,
and a last screen that completes the flow. -/
def orderScreens : List Screen := [
  ⟨"SIZE", "Size", [
    .widget (.optIn ⟨"Gift", "gift", none, none, none⟩),
    .ifBlock "gift" [.widget (.textInput .email
      ⟨"To", "to", none, none, none, none, none, none, none, none, none⟩)] []]⟩,
  ⟨"DATE", "Date", [
    .widget (.optIn ⟨"None", "", none, none, none⟩),
    .widget (.textInput .phone
      ⟨"To", "to", none, none, none, none, none, none, none, none, none⟩),
    .widget (.datePicker
      ⟨"When", "when", none, none, none, none, none, none, none, none, none⟩)]⟩,
  ⟨"CHECK", "Check", []⟩,
  ⟨"DONE", "Done", [.switchBlock "gift" [("yes", [.widget (.footer
    ⟨"Finish", none, none, none, none, some ⟨.complete, none, none, none⟩⟩)])]]⟩]

/-- The third screen declares three names, and the one that is given twice has the sample of the
first; the last screen is terminal. -/
theorem orderScreens_inherit : (orderScreens.map Screen.id).Nodup ∧
    ∃ d, compileFlow orderScreens = .ok d ∧
      (∃ w, d.screens[2]? = some w ∧ ∃ data ∈ w.data, data.keys = ["gift", "to", "when"] ∧
        data.get? "to" = some ⟨"string", "user@example.com"⟩) ∧
      ∃ w, d.screens[3]? = some w ∧ w.terminal = some true ∧ w.data = some [] := by
  have distinct : (orderScreens.map Screen.id).Nodup := by decide
  obtain ⟨d, compiled, -, each, -⟩ := compileFlow_inherits orderScreens distinct
  refine ⟨distinct, d, compiled, ?_⟩
  rw [compileFlow_of_nodup distinct] at compiled
  cases compiled
  constructor
  · refine ⟨_, rfl, _, rfl, ?_⟩
    obtain ⟨-, goesOn⟩ := each 2 _ rfl
    obtain ⟨-, -, -, declared⟩ := goesOn (by decide +kernel)
    obtain ⟨keys, -, samples⟩ := declared _ rfl
    exact ⟨keys.trans rfl, (samples "to").trans rfl⟩
  · refine ⟨_, rfl, ?_⟩
    obtain ⟨terminal, -, empty⟩ := (each 3 _ rfl).1.mpr (by decide +kernel)
    exact ⟨terminal, empty⟩

end ScreenFlow.Compile
