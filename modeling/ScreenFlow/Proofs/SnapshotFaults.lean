import ScreenFlow.Proofs.Design.Snapshots
import ScreenFlow.Proofs.Design.TagFaults

/-!
# All screens or the first fault

A snapshot is read as a whole or not at all. Where it is read, every element has the tree of kinds
that the tags of its value spell. Where it is not, the first element that fails is blamed, with its
screen and its position: for the first value inside it that names no kind, or, where all do, for a
fault that no tag has a part in.
-/

namespace ScreenFlow.Design

open ScreenFlow.Codec ScreenFlow.Json

/-! ## One item after the other -/

section

variable {ε α β : Type} {f : α → Except ε β}

/-- Items are read as a list exactly when each is read as the item in its place. -/
theorem mapM_eq_ok_iff {as : List α} {bs : List β} :
    as.mapM f = .ok bs ↔ List.Forall₂ (fun a b => f a = .ok b) as bs := by
  induction as generalizing bs with
  | nil =>
      constructor
      · intro read
        cases read
        exact .nil
      · intro read
        cases read
        rfl
  | cons a as ih =>
      simp only [List.mapM_cons, Codec.bind_eq_ok_iff, ih, List.forall₂_cons_left_iff]
      simp only [pure, Except.pure, Except.ok.injEq, eq_comm (b := bs), exists_and_left]

/-- A list is refused for its first item that is. -/
theorem mapM_eq_error_iff {as : List α} {e : ε} :
    as.mapM f = .error e ↔ ∃ before a after, as = before ++ a :: after ∧
      (∀ b ∈ before, ∃ c, f b = .ok c) ∧ f a = .error e := by
  induction as with
  | nil => simp [pure, Except.pure]
  | cons a as ih =>
      rw [List.mapM_cons]
      cases here : f a with
      | error e' =>
          constructor
          · intro failed
            cases failed
            exact ⟨[], a, as, rfl, List.forall_mem_nil _, here⟩
          · rintro ⟨before, b, after, split, passed, failed⟩
            cases before with
            | nil =>
                cases split
                rw [here] at failed
                cases failed
                rfl
            | cons c before =>
                cases split
                obtain ⟨d, impossible⟩ := passed a List.mem_cons_self
                rw [here] at impossible
                cases impossible
      | ok b =>
          have later : (Except.ok b >>= fun b => as.mapM f >>= fun bs => pure (b :: bs)) =
              .error e ↔ as.mapM f = .error e := by
            cases as.mapM f <;> simp [bind, Except.bind, pure, Except.pure]
          rw [later, ih]
          constructor
          · rintro ⟨before, c, after, rfl, passed, failed⟩
            exact ⟨a :: before, c, after, rfl, List.forall_mem_cons.mpr ⟨⟨b, here⟩, passed⟩, failed⟩
          · rintro ⟨before, c, after, split, passed, failed⟩
            cases before with
            | nil =>
                cases split
                rw [here] at failed
                cases failed
            | cons d before =>
                cases split
                exact ⟨before, c, after, rfl, (List.forall_mem_cons.mp passed).2, failed⟩

/-- A list is read where each of its items is. -/
theorem exists_mapM_iff {as : List α} :
    (∃ bs, as.mapM f = .ok bs) ↔ ∀ a ∈ as, ∃ b, f a = .ok b := by
  constructor
  · rintro ⟨bs, read⟩ a member
    obtain ⟨b, -, here⟩ := exists_right_of_forall₂ (mapM_eq_ok_iff.mp read) a member
    exact ⟨b, here⟩
  · intro each
    cases read : as.mapM f with
    | ok bs => exact ⟨bs, rfl⟩
    | error e =>
        obtain ⟨before, a, after, rfl, -, failed⟩ := mapM_eq_error_iff.mp read
        obtain ⟨b, impossible⟩ := each a (List.mem_append_right _ List.mem_cons_self)
        rw [failed] at impossible
        cases impossible

end

theorem readElements_eq (screen : String) (position : Nat) (vs : List Value) :
    readElements screen position vs =
      (vs.zipIdx position).mapM fun c => readElement screen c.2 c.1 := by
  induction vs generalizing position with
  | nil => rfl
  | cons v vs ih => rw [readElements, ih, List.zipIdx_cons, List.mapM_cons]

theorem readScreens_eq (raws : List RawScreen) : readScreens raws = raws.mapM RawScreen.read := by
  induction raws with
  | nil => rfl
  | cons raw raws ih => rw [readScreens, ih, List.mapM_cons]

/-! ## One element -/

/-- An element of a snapshot can be read: its kinds pass their check, and it is well formed. -/
def IsReadable (v : Value) : Prop :=
  (∃ k, checkKind v = .ok k) ∧ ∃ e, Element.union.decode .held v.toTree = .ok e

/-- What an element that cannot be read is blamed for: the first value in it that names no kind, or,
where all name kinds, a fault that is none of a tag. -/
inductive Blame (screen : String) (position : Nat) (v : Value) : SnapshotError → Prop where
  | unknown {path : List Step} {w : Value} {tag : String} :
      v.firstUnkinded? = some (path, w) → w.tag? = some tag →
        Blame screen position v (.unmappableKind screen position tag)
  | untyped {path : List Step} {w : Value} :
      v.firstUnkinded? = some (path, w) → w.tag? = none →
        Blame screen position v (.untypedElement screen position)
  | malformed {k : Kind} {fault : Fault} :
      v.firstUnkinded? = none → v.tag? = some k.name →
        Element.union.decode .held v.toTree = .error fault → ¬fault.IsOfTag →
          Blame screen position v (.malformedElement screen position k fault)

theorem readElement_eq_ok_iff {screen : String} {position : Nat} {v : Value} {e : Element} :
    readElement screen position v = .ok e ↔
      (∃ k, checkKind v = .ok k) ∧ Element.union.decode .held v.toTree = .ok e := by
  unfold readElement
  cases checkKind v with
  | error fault => cases fault <;> simp
  | ok k => simp [Codec.mapError_eq_ok_iff]

theorem exists_readElement_iff {screen : String} {position : Nat} {v : Value} :
    (∃ e, readElement screen position v = .ok e) ↔ IsReadable v := by
  simp only [readElement_eq_ok_iff, exists_and_left]
  rfl

/-- An element is refused with exactly what it is blamed for. -/
theorem readElement_eq_error_iff {screen : String} {position : Nat} {v : Value}
    (distinct : v.All Value.HasDistinctKeys) {error : SnapshotError} :
    readElement screen position v = .error error ↔ Blame screen position v error := by
  unfold readElement
  constructor
  · intro failed
    cases first : v.firstUnkinded? with
    | some p =>
        cases tagged : p.2.tag? with
        | some tag =>
            rw [checkKind_of_unknown first tagged] at failed
            cases failed
            exact .unknown first tagged
        | none =>
            rw [checkKind_of_untyped first tagged] at failed
            cases failed
            exact .untyped first tagged
    | none =>
        obtain ⟨k, named⟩ := Value.exists_kind_of_firstUnkinded? first
        rw [checkKind_of_kinded first named] at failed
        obtain ⟨fault, refused, rfl⟩ := mapError_eq_error_iff.mp failed
        exact .malformed first (Value.tag?_of_kind? named) refused
          (Element.failsElsewhere distinct first refused)
  · intro blame
    cases blame with
    | unknown first tagged => rw [checkKind_of_unknown first tagged]
    | untyped first tagged => rw [checkKind_of_untyped first tagged]
    | @malformed k fault first tagged refused _ =>
        have named : v.kind? = some k := by
          rw [Value.kind?, tagged]
          exact Element.ofName?_name k
        rw [checkKind_of_kinded first named]
        exact mapError_eq_error_iff.mpr ⟨fault, refused, rfl⟩

/-! ## One screen -/

/-- The elements of a screen, each at its position. -/
def RawScreen.readPlaced (raw : RawScreen) : Except SnapshotError (List Element) :=
  (raw.elements.zipIdx 1).mapM fun c => readElement raw.id c.2 c.1

theorem RawScreen.read_eq (raw : RawScreen) :
    raw.read = raw.readPlaced.map fun es => ⟨raw.id, raw.title, es⟩ := by
  rw [read, readElements_eq, readPlaced]
  cases (raw.elements.zipIdx 1).mapM fun c => readElement raw.id c.2 c.1 <;> rfl

theorem forall_readable_zipIdx {screen : String} {vs : List Value} {position : Nat} :
    (∀ c ∈ vs.zipIdx position, ∃ e, readElement screen c.2 c.1 = .ok e) ↔
      ∀ v ∈ vs, IsReadable v := by
  simp only [exists_readElement_iff]
  rw [← List.forall_mem_map, List.zipIdx_map_fst]

theorem exists_read_iff {raw : RawScreen} :
    (∃ s, raw.read = .ok s) ↔ ∀ v ∈ raw.elements, IsReadable v := by
  rw [← forall_readable_zipIdx, ← exists_mapM_iff, RawScreen.read_eq]
  simp only [Codec.map_eq_ok_iff]
  constructor
  · rintro ⟨s, es, read, -⟩
    exact ⟨es, read⟩
  · rintro ⟨es, read⟩
    exact ⟨_, es, read, rfl⟩

/-- What is read from a screen has its id, its title and its elements in order. -/
theorem read_eq_ok {raw : RawScreen} {s : Screen} (read : raw.read = .ok s) :
    s.id = raw.id ∧ s.title = raw.title ∧ List.Forall₂ (fun v e =>
      (∃ k, checkKind v = .ok k) ∧ Element.union.decode .held v.toTree = .ok e)
      raw.elements s.elements := by
  rw [RawScreen.read_eq] at read
  obtain ⟨es, elements, rfl⟩ := Codec.map_eq_ok_iff.mp read
  refine ⟨rfl, rfl, ?_⟩
  rw [RawScreen.readPlaced, mapM_eq_ok_iff] at elements
  rw [← List.zipIdx_map_fst 1 raw.elements, List.forall₂_map_left_iff]
  exact elements.imp fun c e each => readElement_eq_ok_iff.mp each

/-- A screen is refused for its first element that is. -/
theorem read_eq_error_iff {raw : RawScreen}
    (distinct : ∀ v ∈ raw.elements, v.All Value.HasDistinctKeys) {error : SnapshotError} :
    raw.read = .error error ↔ ∃ before v after, raw.elements = before ++ v :: after ∧
      (∀ w ∈ before, IsReadable w) ∧ Blame raw.id (before.length + 1) v error := by
  have elements : raw.read = .error error ↔ raw.readPlaced = .error error := by
    rw [RawScreen.read_eq]
    cases raw.readPlaced <;> simp [Except.map]
  rw [elements, RawScreen.readPlaced, mapM_eq_error_iff]
  constructor
  · rintro ⟨before, c, after, split, passed, failed⟩
    obtain ⟨vs, rest, whole, rfl, behind⟩ := List.zipIdx_eq_append_iff.mp split
    obtain ⟨v, ws, rfl, rfl, rfl⟩ := List.zipIdx_eq_cons_iff.mp behind.symm
    have sound : v.All Value.HasDistinctKeys := distinct v (by simp [whole])
    rw [Nat.add_comm, readElement_eq_error_iff sound] at failed
    exact ⟨vs, v, ws, whole, forall_readable_zipIdx.mp passed, failed⟩
  · rintro ⟨before, v, after, whole, passed, blame⟩
    have sound : v.All Value.HasDistinctKeys := distinct v (by simp [whole])
    refine ⟨before.zipIdx 1, (v, before.length + 1), after.zipIdx (before.length + 1 + 1), ?_,
      forall_readable_zipIdx.mpr passed, (readElement_eq_error_iff sound).mpr blame⟩
    rw [whole, List.zipIdx_append, List.zipIdx_cons, Nat.add_comm 1]

/-! ## Whole snapshots -/

/-- No object in an element of a snapshot has a key twice. -/
theorem distinct_of_ofText {text : String} {snapshot : Snapshot}
    (decoded : Snapshot.ofText text = .ok snapshot) :
    ∀ raw ∈ snapshot.screens, ∀ v ∈ raw.elements, v.All Value.HasDistinctKeys := by
  unfold Snapshot.ofText at decoded
  split at decoded
  · rename_i tree
    intro raw member v inside
    have proper := Snapshot.proper_of_decode (Tree.fits_of_parse? tree) decoded raw member v inside
    exact proper.imp fun w both => both.1
  · cases decoded

/--
Screens are read from a snapshot exactly where each of its elements passes the check of kinds and is
well formed. Then they are its screens in order, and each element has at every place in its
branches the kind that the tag at that place names, and no more places. Otherwise the first element
that fails is blamed, in the order of screens and elements, with the id of its screen and its
position counted from one: for the first value in the order of the walk that names no kind, be it an
unknown text or none; or, where all name kinds, for a fault of reading it that is none of a tag, at
any depth.
-/
theorem parseScreens_of_snapshot {text : String} {snapshot : Snapshot}
    (decoded : Snapshot.ofText text = .ok snapshot) :
    ((∃ screens, parseScreens text = .ok screens) ↔
      ∀ raw ∈ snapshot.screens, ∀ v ∈ raw.elements,
        (∃ k, checkKind v = .ok k) ∧ ∃ e, Element.union.decode .held v.toTree = .ok e) ∧
    (∀ screens, parseScreens text = .ok screens →
      List.Forall₂ (fun raw s => s.id = raw.id ∧ s.title = raw.title ∧
        List.Forall₂ (fun v e => Element.union.decode .held v.toTree = .ok e ∧
          v.placed.map (fun p => (p.1, p.2.tag?)) =
            e.placed.map fun p => (p.1, some p.2.kind.name)) raw.elements s.elements)
        snapshot.screens screens) ∧
    ∀ error, parseScreens text = .error error ↔
      ∃ screensBefore raw screensAfter before v after,
        snapshot.screens = screensBefore ++ raw :: screensAfter ∧
        raw.elements = before ++ v :: after ∧
        (∀ r ∈ screensBefore, ∀ w ∈ r.elements, IsReadable w) ∧ (∀ w ∈ before, IsReadable w) ∧
        Blame raw.id (before.length + 1) v error := by
  have distinct := distinct_of_ofText decoded
  have parsed : parseScreens text = snapshot.screens.mapM RawScreen.read := by
    rw [parseScreens, decoded]
    exact readScreens_eq snapshot.screens
  rw [parsed]
  refine ⟨?_, ?_, ?_⟩
  · rw [exists_mapM_iff]
    exact forall₂_congr fun raw _ => exists_read_iff
  · intro screens read
    rw [mapM_eq_ok_iff] at read
    refine ((List.forall₂_and_left _ _).mpr ⟨distinct, read⟩).imp ?_
    rintro raw s ⟨sound, screenRead⟩
    obtain ⟨id, title, elements⟩ := read_eq_ok screenRead
    refine ⟨id, title, ((List.forall₂_and_left _ _).mpr ⟨sound, elements⟩).imp ?_⟩
    rintro v e ⟨distinctKeys, ⟨k, passed⟩, elementRead⟩
    exact ⟨elementRead, Element.map_tag?_placed distinctKeys (firstUnkinded?_of_checkKind passed)
      elementRead⟩
  · intro error
    rw [mapM_eq_error_iff]
    constructor
    · rintro ⟨screensBefore, raw, screensAfter, whole, passed, failed⟩
      have sound := distinct raw (by simp [whole])
      obtain ⟨before, v, after, elements, earlier, blame⟩ := (read_eq_error_iff sound).mp failed
      exact ⟨screensBefore, raw, screensAfter, before, v, after, whole, elements,
        fun r member => exists_read_iff.mp (passed r member), earlier, blame⟩
    · rintro ⟨screensBefore, raw, screensAfter, before, v, after, whole, elements, passed, earlier,
        blame⟩
      have sound := distinct raw (by simp [whole])
      exact ⟨screensBefore, raw, screensAfter, whole,
        fun r member => exists_read_iff.mpr (passed r member),
        (read_eq_error_iff sound).mpr ⟨before, v, after, elements, earlier, blame⟩⟩

/-- A heading without attributes. -/
def plainHeading : Value := .object [("type", .string "TextHeading")]

/-- An element with one of an unknown kind in a case inside its second branch. -/
def strangeCase : Value :=
  .object [("type", .string "If"), ("then", .array [plainHeading]),
    ("else", .array [.object [("type", .string "Switch"),
      ("cases", .object [("a", .null), ("b", .array [.object [("type", .string "Carousel")]])])]])]

/-- Two screens, of which the second has the strange case and an element without a tag behind it. -/
def strangeScreens : List RawScreen :=
  [⟨"START", "", [plainHeading]⟩, ⟨"END", "", [plainHeading, strangeCase, .object []]⟩]

/-- The unknown kind is blamed, at the second element of the second screen. -/
theorem strangeCase_is_blamed : ∃ text, Snapshot.ofText text = .ok ⟨strangeScreens⟩ ∧
    parseScreens text = .error (.unmappableKind "END" 2 "Carousel") := by
  have distinct : (RawScreen.listCodec.encode strangeScreens).All Value.HasDistinctKeys := by
    decide +kernel
  have readsBack : (RawScreen.listCodec.encode strangeScreens).All Value.ReadsBack := by
    decide +kernel
  have fits : (RawScreen.listCodec.encode strangeScreens).depth ≤ maxDepth := by decide +kernel
  have decoded := Snapshot.ofText_render readsBack fits
  rw [Snapshot.decode_list distinct] at decoded
  have heading : IsReadable plainHeading := by
    have reads : (readElement "START" 1 plainHeading).toOption.isSome = true := by decide +kernel
    obtain ⟨e, read⟩ := Option.isSome_iff_exists.mp reads
    exact exists_readElement_iff.mp ⟨e, Codec.eq_ok_of_toOption read⟩
  have first : strangeCase.firstUnkinded? = some
      ([⟨.elseBranch, 1⟩, ⟨.caseBranch "b", 1⟩], .object [("type", .string "Carousel")]) := by
    decide +kernel
  refine ⟨_, decoded, ((parseScreens_of_snapshot decoded).2.2 _).mpr
    ⟨[⟨"START", "", [plainHeading]⟩], _, [], [plainHeading], strangeCase, [.object []], rfl, rfl,
      ?_, List.forall_mem_singleton.mpr heading, .unknown first rfl⟩⟩
  exact List.forall_mem_singleton.mpr (List.forall_mem_singleton.mpr heading)

end ScreenFlow.Design
