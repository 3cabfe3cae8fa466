import ScreenFlow.Proofs.InheritedData
import ScreenFlow.Proofs.Review.Places

/-!
# Collected fields

Names are made distinct twice, on each screen and over all screens, and both times the first element
that gives a name counts. So what is collected does not depend on how the elements are divided into
screens: one pass over all of them, at every depth, gives the same fields in the same order.
-/

namespace ScreenFlow.Design

/-- The fields that elements declare, in their order, without those whose name an element before
gives. -/
def firstDeclarations (es : List Element) : List NamedField :=
  es.zipIdx.filterMap fun c =>
    c.1.namedField?.filter fun f => f.name ∉ (es.take c.2).filterMap Element.fieldName?

/-! ## Elements that declare fields -/

/-- The kinds with a sample are those of inputs. -/
theorem Kind.isSome_sample? (k : Kind) : k.sample?.isSome = (k.role == .input) := by
  cases k <;> rfl

/-- A field is declared exactly by an input with its name and kind. -/
theorem Element.namedField?_eq_some_iff {e : Element} {f : NamedField} :
    e.namedField? = some f ↔ e.inputName? = some f.name ∧ f.name ≠ "" ∧ e.kind = f.kind := by
  rw [namedField?, Option.map_eq_some_iff]
  constructor
  · rintro ⟨name, gives, rfl⟩
    cases e with
    | widget w =>
        obtain ⟨named, filled⟩ := Option.filter_eq_some_iff.mp gives
        exact ⟨named, by simpa using filled, rfl⟩
    | ifBlock => cases gives
    | switchBlock => cases gives
  · rintro ⟨named, filled, kind⟩
    exact ⟨f.name, Element.fieldName?_of_inputName? named filled, by rw [kind]⟩

theorem Element.role_of_inputName? {e : Element} {name : String}
    (named : e.inputName? = some name) : e.kind.role = .input := by
  have isInput := Element.isSome_inputName? e
  rw [named, Option.isSome_some, eq_comm, beq_iff_eq] at isInput
  exact isInput

/-- The sample of a field that an element declares is that of an input. -/
theorem NamedField.sample?_of_namedField? {e : Element} {f : NamedField}
    (declared : e.namedField? = some f) :
    f.kind.role = .input ∧ f.kind.sample? = some f.sample := by
  obtain ⟨named, -, kind⟩ := Element.namedField?_eq_some_iff.mp declared
  have isInput : f.kind.role = .input := kind ▸ Element.role_of_inputName? named
  refine ⟨isInput, ?_⟩
  have hasSample : f.kind.sample?.isSome = true := by
    rw [Kind.isSome_sample?, isInput, beq_self_eq_true]
  rw [NamedField.sample, ← Option.some_get hasSample, Option.getD_some]

/-- An element is walked on a screen exactly if steps lead to it from an element of the screen. -/
theorem Screen.mem_walk_iff {s : Screen} {inner : Element} :
    inner ∈ s.walk ↔ ∃ e ∈ s.elements, ∃ path, Element.Leads e path inner := by
  rw [Screen.walk, List.mem_flatMap]
  refine exists_congr fun e => and_congr_right fun _ => ?_
  rw [← Element.map_snd_placed, List.mem_map]
  constructor
  · rintro ⟨⟨path, _⟩, placed, rfl⟩
    exact ⟨path, Element.mem_placed_iff.mp placed⟩
  · rintro ⟨path, leads⟩
    exact ⟨(path, inner), Element.mem_placed_iff.mpr leads, rfl⟩

end ScreenFlow.Design

namespace ScreenFlow.Compile

open ScreenFlow.Design (Element NamedField Screen firstDeclarations)

/-! ## What is collected -/

/-- One pass over the elements of all screens. -/
theorem collectNamedFields_eq_firstDeclarations (screens : List Screen) :
    collectNamedFields screens = firstDeclarations (screens.flatMap Screen.walk) := by
  rw [collectNamedFields_eq, firsts_filterMap, firstDeclarations]
  simp only [List.map_filterMap, Element.map_name_namedField?]

/-- It does not matter which screen an element is on. -/
theorem collectNamedFields_eq_namedFields (screens : List Screen) (id title : String) :
    collectNamedFields screens =
      (Screen.mk id title (screens.flatMap Screen.elements)).namedFields := by
  rw [collectNamedFields_eq, Screen.namedFields]
  show _ = firsts _ (((screens.flatMap Screen.elements).flatMap Element.walk).filterMap _)
  rw [List.flatMap_assoc]
  rfl

/-- What is collected is declared by an element of some screen. -/
theorem exists_of_mem_collectNamedFields {screens : List Screen} {f : NamedField}
    (collected : f ∈ collectNamedFields screens) :
    ∃ s ∈ screens, ∃ e ∈ s.walk, e.namedField? = some f := by
  rw [collectNamedFields_eq] at collected
  obtain ⟨e, walked, declared⟩ :=
    List.mem_filterMap.mp ((firstsFrom_sublist NamedField.name [] _).subset collected)
  obtain ⟨s, among, inside⟩ := List.mem_flatMap.mp walked
  exact ⟨s, among, e, inside, declared⟩

theorem mem_map_name_collectNamedFields {screens : List Screen} {name : String} :
    name ∈ (collectNamedFields screens).map NamedField.name ↔
      ∃ s ∈ screens, ∃ e ∈ s.walk, e.inputName? = some name ∧ name ≠ "" := by
  rw [collectNamedFields_eq, mem_map_firsts, List.mem_map]
  constructor
  · rintro ⟨f, given, rfl⟩
    obtain ⟨e, walked, declared⟩ := List.mem_filterMap.mp given
    obtain ⟨s, among, inside⟩ := List.mem_flatMap.mp walked
    obtain ⟨named, filled, -⟩ := Element.namedField?_eq_some_iff.mp declared
    exact ⟨s, among, e, inside, named, filled⟩
  · rintro ⟨s, among, e, inside, named, filled⟩
    refine ⟨⟨name, e.kind⟩, List.mem_filterMap.mpr ⟨e, ?_, ?_⟩, rfl⟩
    · exact List.mem_flatMap.mpr ⟨s, among, inside⟩
    · exact Element.namedField?_eq_some_iff.mpr ⟨named, filled, rfl⟩

/-! ## More screens -/

/-- More screens add the fields whose names are new. -/
theorem collectNamedFields_append (screens more : List Screen) :
    collectNamedFields (screens ++ more) = collectNamedFields screens ++
      (collectNamedFields more).filter fun f =>
        f.name ∉ (collectNamedFields screens).map NamedField.name := by
  rw [collectNamedFields, List.flatMap_append, firsts_append]
  rfl

/-- Screens that were there before add nothing. -/
theorem collectNamedFields_append_of_subset {screens again : List Screen}
    (known : ∀ s ∈ again, s ∈ screens) :
    collectNamedFields (screens ++ again) = collectNamedFields screens := by
  have nothing : ((collectNamedFields again).filter fun f =>
      f.name ∉ (collectNamedFields screens).map NamedField.name) = [] := by
    rw [List.filter_eq_nil_iff]
    intro f collected
    obtain ⟨s, among, e, inside, named, filled⟩ :=
      mem_map_name_collectNamedFields.mp (List.mem_map_of_mem collected)
    have before := mem_map_name_collectNamedFields.mpr ⟨s, known s among, e, inside, named, filled⟩
    simpa using before
  rw [collectNamedFields_append, nothing, List.append_nil]

/-! ## Main statement -/

/--
Screens declare what one screen with all their elements declares, and one pass over everything
inside them collects it: each field stands where its name is given first, with the kind of the
element that gives it. The names are distinct and not empty, and they are the names of the inputs at
all depths; each field has the sample of an input. More screens add the fields whose names are new,
behind those that are there, and screens that were collected before add nothing.
-/
theorem collectNamedFields_in_one_pass (screens : List Screen) :
    (∀ id title, collectNamedFields screens =
      (Screen.mk id title (screens.flatMap Screen.elements)).namedFields) ∧
    collectNamedFields screens = firstDeclarations (screens.flatMap Screen.walk) ∧
    ((collectNamedFields screens).map NamedField.name).Nodup ∧
    (∀ f ∈ collectNamedFields screens,
      f.name ≠ "" ∧ f.kind.role = .input ∧ f.kind.sample? = some f.sample) ∧
    (∀ name, name ∈ (collectNamedFields screens).map NamedField.name ↔
      name ≠ "" ∧ ∃ s ∈ screens, ∃ e ∈ s.elements, ∃ path inner,
        Element.Leads e path inner ∧ inner.kind.role = .input ∧ inner.inputName? = some name) ∧
    (∀ more, collectNamedFields (screens ++ more) = collectNamedFields screens ++
      (collectNamedFields more).filter fun f =>
        f.name ∉ (collectNamedFields screens).map NamedField.name) ∧
    ∀ again more, (∀ s ∈ again, s ∈ screens) →
      collectNamedFields (screens ++ again ++ more) = collectNamedFields (screens ++ more) := by
  refine ⟨collectNamedFields_eq_namedFields screens,
    collectNamedFields_eq_firstDeclarations screens, nodup_collectNamedFields screens, ?_, ?_,
    collectNamedFields_append screens, ?_⟩
  · intro f collected
    obtain ⟨s, -, e, -, declared⟩ := exists_of_mem_collectNamedFields collected
    obtain ⟨-, filled, -⟩ := Element.namedField?_eq_some_iff.mp declared
    exact ⟨filled, NamedField.sample?_of_namedField? declared⟩
  · intro name
    rw [mem_map_name_collectNamedFields]
    constructor
    · rintro ⟨s, among, inner, inside, named, filled⟩
      obtain ⟨e, top, path, leads⟩ := Screen.mem_walk_iff.mp inside
      exact ⟨filled, s, among, e, top, path, inner, leads, Element.role_of_inputName? named, named⟩
    · rintro ⟨filled, s, among, e, top, path, inner, leads, -, named⟩
      exact ⟨s, among, inner, Screen.mem_walk_iff.mpr ⟨e, top, path, leads⟩, named, filled⟩
  · intro again more known
    rw [collectNamedFields_append, collectNamedFields_append_of_subset known,
      ← collectNamedFields_append]

/-- Two screens of a booking. A guest is asked for in a case inside a block and again at the top of
the second screen; one control has no name. -/
def stayScreens : List Screen := [
  ⟨"STAY", "Stay", [
    .widget (.optIn ⟨"Flexible", "", none, none, none⟩),
    .ifBlock "open"
      [.widget (.datePicker ⟨"From", "from", none, none, none, none, none, none, none, none, none⟩)]
      [.switchBlock "who" [("other", [.widget (.textInput .email
        ⟨"Guest", "guest", none, none, none, none, none, none, none, none, none⟩)])]]]⟩,
  ⟨"GUEST", "Guest", [
    .widget (.textInput .phone
      ⟨"Guest", "guest", none, none, none, none, none, none, none, none, none⟩),
    .widget (.datePicker ⟨"To", "to", none, none, none, none, none, none, none, none, none⟩)]⟩]

/-- The guest is the one inside the block, before the field that only the second screen has. Going
back through the screens adds nothing. -/
theorem stayScreens_collected :
    (collectNamedFields stayScreens).map NamedField.name = ["from", "guest", "to"] ∧
      (∃ f ∈ collectNamedFields stayScreens, f.name = "guest" ∧ f.sample = "user@example.com") ∧
      collectNamedFields (stayScreens ++ stayScreens.reverse) = collectNamedFields stayScreens := by
  obtain ⟨-, onePass, -, -, -, -, again⟩ := collectNamedFields_in_one_pass stayScreens
  have back := again stayScreens.reverse [] fun s among => List.mem_reverse.mp among
  rw [List.append_nil, List.append_nil] at back
  refine ⟨?_, ?_, back⟩
  · rw [onePass]
    decide
  · rw [onePass]
    decide

end ScreenFlow.Compile
