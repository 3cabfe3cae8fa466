import ScreenFlow.Proofs.Json.Embedding
import ScreenFlow.Proofs.Json.Exact
import ScreenFlow.Proofs.SnapshotFaults

/-!
# Elements alone and in a snapshot

An element can be read from a text of its own, or as the only element of a snapshot with one screen.
Inside branches the reader takes a position among the kinds for a tag as well, which the check of
kinds does not; apart from that both ways read the same elements from the same texts.
-/

namespace ScreenFlow.Json.Value

open ScreenFlow.Codec (tagKey)
open ScreenFlow.Design (Kind)

/-- Whether a value is an object. -/
def isObject : Value → Bool
  | .object _ => true
  | _ => false

/-- Whether the tag of a value is an integer. -/
def hasIntegerTag (v : Value) : Bool :=
  match v.member tagKey with
  | .number (.integer _) => true
  | _ => false

theorem hasIntegerTag_of_kind? {v : Value} {k : Kind} (named : v.kind? = some k) :
    v.hasIntegerTag = false := by
  have tagged := tag?_of_kind? named
  unfold tag? at tagged
  unfold hasIntegerTag
  cases tag : v.member tagKey with
  | number n =>
      rw [tag] at tagged
      cases tagged
  | null | bool | string | array | object => rfl

end ScreenFlow.Json.Value

namespace ScreenFlow.Design

open ScreenFlow.Codec ScreenFlow.Json

/-! ## Elements that are read have kinds -/

namespace Element

/-- A text is the tag of a variant only if it is the name of a kind. -/
theorem exists_kind_of_variant? {origin : Origin} {tag : String} {read : Variant Element}
    (known : union.variant? origin (.string tag) = .ok read) : ∃ k, Kind.ofName? tag = some k := by
  unfold TaggedUnion.variant? at known
  dsimp only at known
  rw [find?_variants] at known
  cases named : Kind.ofName? tag with
  | some k => exact ⟨k, rfl⟩
  | none =>
      rw [named] at known
      cases known

/-- An object from which an element is read names its kind, unless the tag is an integer. -/
theorem exists_kind_of_decode {v : Value} (distinct : v.HasDistinctKeys)
    (isObject : v.isObject = true) (plain : v.hasIntegerTag = false) {origin : Origin} {e : Element}
    (read : union.decode origin v.toTree = .ok e) : ∃ k, v.kind? = some k := by
  unfold Value.hasIntegerTag Value.member at plain
  unfold Value.kind? Value.tag? Value.member
  cases v with
  | object ms =>
      cases found : Entries.get? ms tagKey with
      | none =>
          rw [decode_of_get?_none found] at read
          cases read
      | some tag =>
          rw [decode_of_get? distinct found] at read
          obtain ⟨variant, known, -⟩ := Codec.bind_eq_ok_iff.mp read
          simp only [Value.members, found, Option.getD_some] at plain ⊢
          cases tag with
          | string tag => exact exists_kind_of_variant? known
          | number n =>
              cases n with
              | integer n => cases plain
              | float x => cases known
          | null | bool | array | object => cases known
  | null | bool | number | string | array => cases isObject

/-- Where all that stand for elements are objects without integers as tags, they name kinds if an
element is read. -/
theorem firstUnkinded?_of_decode {v : Value} (distinct : v.All Value.HasDistinctKeys)
    (objects : ∀ p ∈ v.placed, p.2.isObject = true)
    (plain : ∀ p ∈ v.placed, p.2.hasIntegerTag = false) {origin : Origin} {e : Element}
    (read : union.decode origin v.toTree = .ok e) : v.firstUnkinded? = none := by
  -- The value itself names a kind, so its steps are those of the element, which was read from what
  -- they lead to.
  induction v using Value.stepInduction generalizing origin e with
  | step v ih =>
      obtain ⟨k, named⟩ := exists_kind_of_decode distinct.here (objects _ v.mem_placed_self)
        (plain _ v.mem_placed_self) read
      rw [decode_of_kind? distinct.here named] at read
      rw [Value.firstUnkinded?_eq, named]
      refine List.findSome?_eq_none_iff.mpr ?_
      intro c stepped
      obtain ⟨d, -, -, inner⟩ :=
        exists_right_of_forall₂ (forall₂_steps distinct named read) c stepped
      have behind := ih c stepped (Value.all_of_mem_steps distinct stepped)
        (Value.forall_mem_placed_of_mem_steps (P := (·.isObject = true)) objects stepped)
        (Value.forall_mem_placed_of_mem_steps (P := (·.hasIntegerTag = false)) plain stepped) inner
      rw [Value.firstUnkindedAfter?, behind]
      rfl

end Element

/-- An element of a snapshot is read exactly where it is read straight from its text and nothing in
it has an integer as its tag. -/
theorem readElement_eq_ok_iff_alone {v : Value} (distinct : v.All Value.HasDistinctKeys)
    (objects : ∀ p ∈ v.placed, p.2.isObject = true) {screen : String} {position : Nat}
    {e : Element} :
    readElement screen position v = .ok e ↔
      Element.union.decode .text v.toTree = .ok e ∧ ∀ p ∈ v.placed, p.2.hasIntegerTag = false := by
  rw [readElement_eq_ok_iff]
  constructor
  · rintro ⟨⟨k, passed⟩, read⟩
    have kinded := firstUnkinded?_of_checkKind passed
    obtain ⟨k, named⟩ := Value.exists_kind_of_firstUnkinded? kinded
    rw [Element.decode_of_kind? distinct.here named] at read ⊢
    refine ⟨read, fun p inside => ?_⟩
    obtain ⟨l, inner⟩ := Value.firstUnkinded?_eq_none_iff.mp kinded p inside
    exact Value.hasIntegerTag_of_kind? inner
  · rintro ⟨read, plain⟩
    have kinded := Element.firstUnkinded?_of_decode distinct objects plain read
    obtain ⟨k, named⟩ := Value.exists_kind_of_firstUnkinded? kinded
    rw [Element.decode_of_kind? distinct.here named] at read ⊢
    exact ⟨⟨k, checkKind_of_kinded kinded named⟩, read⟩

/-! ## Texts of one screen -/

/-- The text of a snapshot with one screen around the text of its only element. -/
def oneScreen (text : String) : String :=
  "[\x7b\"id\":\"S\",\"elements\":[" ++ text ++ "]\x7d]"

/-- The tree of one screen around the tree of its only element. -/
def oneScreenTree (t : Tree) : Tree :=
  .array [.object [("id", .string "S"), ("elements", .array [t])]]

theorem isLegible_oneScreenTree (t : Tree) : (oneScreenTree t).isLegible = t.isLegible := by
  simp [oneScreenTree, Tree.isLegible, Tree.itemsLegible, Tree.membersLegible]

theorem tokens?_oneScreen {text : String} {ts : List Token}
    (scanned : tokens? text.toList = some ts) : tokens? (oneScreen text).toList =
      some ([.openArray, .openObject, .string "id", .colon, .string "S", .comma,
        .string "elements", .colon, .openArray] ++ ts ++
        [.closeArray, .closeObject, .closeArray]) := by
  have last : "]\x7d]".toList = [']', '\x7d', ']'] := by decide
  have closed : Spells "]\x7d]".toList [.closeArray, .closeObject, .closeArray] := by
    rw [last]
    exact .closed (t := .closeArray) rfl (.closed (t := .closeObject) rfl
      (.closed (t := .closeArray) rfl .nil))
  have delimited : Delimited "]\x7d]".toList := by
    rw [last]
    exact delimited_cons rfl
  have parts : (oneScreen text).toList =
      "[\x7b\"id\":\"S\",\"elements\":[".toList ++ text.toList ++ "]\x7d]".toList :=
    String.toList_append.trans (congrArg (· ++ _) String.toList_append)
  rw [parts]
  exact tokens?_between (by decide +kernel) scanned closed delimited

/-- A tree with room for the three levels around it stands in the tree of the screen as it is. -/
theorem parse?_oneScreen {text : String} {t : Tree} (read : Tree.parse? text = some t)
    (fits : t.depth ≤ 124) : Tree.parse? (oneScreen text) = some (oneScreenTree t) := by
  obtain ⟨ts, scanned, built⟩ := Option.bind_eq_some_iff.mp read
  rw [Tree.ofTokens?_eq_some_iff] at built
  rw [Tree.parse?, tokens?_oneScreen scanned, Option.bind_some, Tree.ofTokens?_eq_some_iff,
    List.foldl_append, List.foldl_append]
  show List.foldl Builder.step (List.foldl Builder.step
    (.growing [.array [], .object [("id", .string "S")] true "elements", .array []] .firstItem)
      ts) _ = _
  rw [Builder.foldl_step_firstItem built]
  show Builder.complete (oneScreenTree (t.cut 124)) = _
  rw [Tree.cut_of_depth_le fits]

/-- The screen is read from its two members; its title is the default. -/
theorem RawScreen.readAll_oneScreen {t : Tree} {v : Value} (read : t.toValue? = some v) :
    RawScreen.fields.readAll "RawScreen" .held
      (.members [("id", .string "S"), ("elements", .array [t])]) = .ok ⟨"S", "", [v]⟩ := by
  have elements : (Codec.list .value).decode .held (.array [t]) = .ok [v] := by
    show Codec.decodeItems (Codec.value.decode .held) [t] = .ok [v]
    rw [Codec.decodeItems_eq_ok_iff]
    exact .cons (Codec.decode_value_eq_ok_iff.mpr read) .nil
  have fields : RawScreen.fields.read ⟨.held, .members [("id", .string "S"),
      ("elements", .array [t])], "RawScreen", RawScreen.fields.names.length⟩ 0 =
      .ok ⟨"S", "", [v]⟩ := by
    show Placed.pair _ (.ok _) (Except.mapError _ ((Codec.list .value).decode .held _)) = _
    rw [elements]
    rfl
  simp only [Fields.readAll, fields]
  rfl

theorem Snapshot.decode_oneScreenTree {t : Tree} {v : Value} (read : t.toValue? = some v) :
    decode (oneScreenTree t) = .ok ⟨[⟨"S", "", [v]⟩]⟩ := by
  have legible : (oneScreenTree t).isLegible = true := by
    rw [isLegible_oneScreenTree, ← Tree.isSome_toValue?, read, Option.isSome_some]
  have screens : RawScreen.listCodec.decode .held (oneScreenTree t) = .ok [⟨"S", "", [v]⟩] := by
    show (do
      let raw ← RawScreen.fields.readAll "RawScreen" .held (.members _)
      let raws ← Codec.decodeItems _ []
      return raw :: raws) = _
    rw [RawScreen.readAll_oneScreen read]
    rfl
  unfold decode
  rw [legible, if_pos rfl]
  show ((RawScreen.listCodec.decode .held (oneScreenTree t)).map Snapshot.mk).mapError _ = _
  rw [screens]
  rfl

/-- A snapshot with one screen and a legible element in it is read by reading that element. -/
theorem parseScreens_oneScreen {text : String} {t : Tree} {v : Value}
    (parsed : Tree.parse? text = some t) (fits : t.depth ≤ 124) (read : t.toValue? = some v) :
    parseScreens (oneScreen text) = (readElement "S" 1 v).map fun e => [⟨"S", "", [e]⟩] := by
  rw [parseScreens, Snapshot.ofText, parse?_oneScreen parsed fits]
  dsimp only
  rw [Snapshot.decode_oneScreenTree read]
  show (do
    let screen ← (do
      let elements ← (do
        let e ← readElement "S" 1 v
        let es ← readElements "S" 2 []
        return e :: es)
      return Screen.mk "S" "" elements)
    let screens ← readScreens []
    return screen :: screens) = _
  cases readElement "S" 1 v <;> rfl

/-- A snapshot with one screen is refused if the element in it is illegible. -/
theorem parseScreens_oneScreen_of_illegible {text : String} {t : Tree}
    (parsed : Tree.parse? text = some t) (fits : t.depth ≤ 124) (illegible : t.isLegible = false) :
    parseScreens (oneScreen text) = .error (.unreadable .malformed) := by
  rw [parseScreens, Snapshot.ofText, parse?_oneScreen parsed fits]
  dsimp only
  unfold Snapshot.decode
  rw [isLegible_oneScreenTree, illegible, if_neg Bool.false_ne_true]

/-! ## Both ways of reading -/

/--
A text none of whose objects has a key twice and which has room for three levels more is the element
of a snapshot with one screen exactly if an element is read from it alone and no tag in it is an
integer, provided that all that stand for elements in it are objects. The screen then has this
element and no others.
-/
theorem parseScreens_oneScreen_iff {text : String} {t : Tree}
    (parsed : Tree.parse? text = some t) (distinct : t.HasDistinctKeys) (fits : t.depth ≤ 124)
    (objects : ∀ v, t.toValue? = some v → ∀ p ∈ v.placed, p.2.isObject = true)
    (screens : List Screen) :
    parseScreens (oneScreen text) = .ok screens ↔
      ∃ v e, t.toValue? = some v ∧ Element.codec.ofText text = .ok e ∧
        (∀ p ∈ v.placed, p.2.hasIntegerTag = false) ∧ screens = [⟨"S", "", [e]⟩] := by
  have alone : Element.codec.ofText text = Element.union.decodeWhole .text t := by
    rw [Codec.ofText, parsed]
    rfl
  rw [alone, TaggedUnion.decodeWhole]
  cases legible : t.isLegible with
  | false =>
      -- Neither way reads anything from a text that holds a part without a value.
      rw [parseScreens_oneScreen_of_illegible parsed fits legible]
      constructor
      · intro impossible
        cases impossible
      · rintro ⟨v, e, -, impossible, -, -⟩
        cases impossible
  | true =>
      obtain ⟨v, read⟩ := Option.isSome_iff_exists.mp ((Tree.isSome_toValue? t).trans legible)
      have whole := Tree.toTree_of_toValue? distinct read
      have sound : v.All Value.HasDistinctKeys :=
        (Tree.proper_of_toValue? (Tree.fits_of_parse? parsed) read).imp fun _ both => both.1
      have same (e : Element) : readElement "S" 1 v = .ok e ↔ Element.union.decode .text t = .ok e ∧
          ∀ p ∈ v.placed, p.2.hasIntegerTag = false := by
        rw [← whole]
        exact readElement_eq_ok_iff_alone sound (objects v read)
      rw [parseScreens_oneScreen parsed fits read, Codec.map_eq_ok_iff, if_pos rfl]
      constructor
      · rintro ⟨e, inSnapshot, rfl⟩
        obtain ⟨direct, plain⟩ := (same e).mp inSnapshot
        exact ⟨v, e, read, direct, plain, rfl⟩
      · rintro ⟨w, e, readAgain, direct, plain, rfl⟩
        cases read.symm.trans readAgain
        exact ⟨e, (same e).mpr ⟨direct, plain⟩, rfl⟩

/-- An `If` with a `Switch` in its second branch. -/
def nestedSwitch : Value :=
  .object [("type", .string "If"), ("condition", .string "new"), ("else", .array [
    .object [("type", .string "Switch"), ("value", .string "tier"), ("cases", .object [
      ("gold", .array [.object [("type", .string "TextBody"), ("text", .string "Welcome")]])])]])]

/-- The element is read alone, and so from a snapshot. -/
theorem nestedSwitch_is_read_both_ways :
    ∃ e, Element.codec.ofText (nestedSwitch.render false) = .ok e ∧
      parseScreens (oneScreen (nestedSwitch.render false)) = .ok [⟨"S", "", [e]⟩] := by
  have sound : nestedSwitch.All Value.HasDistinctKeys := by decide +kernel
  have parsed := Tree.parse?_render_of_depth_le (v := nestedSwitch) (by decide +kernel)
    (by decide +kernel) false
  have objects : ∀ p ∈ nestedSwitch.placed, p.2.isObject = true := by decide +kernel
  have plain : ∀ p ∈ nestedSwitch.placed, p.2.hasIntegerTag = false := by decide +kernel
  have reads : (Element.codec.decode .text nestedSwitch.toTree).toOption.isSome = true := by
    decide +kernel
  obtain ⟨e, read⟩ := Option.isSome_iff_exists.mp reads
  have alone : Element.codec.ofText (nestedSwitch.render false) = .ok e := by
    rw [Codec.ofText, parsed]
    exact Codec.eq_ok_of_toOption read
  have value := Tree.toValue?_toTree sound
  refine ⟨e, alone, (parseScreens_oneScreen_iff parsed (Tree.hasDistinctKeys_toTree sound)
    (by decide +kernel) ?_ _).mpr ⟨nestedSwitch, e, value, alone, plain, rfl⟩⟩
  intro v again
  cases value.symm.trans again
  exact objects

/-- An `If` with an element in its first branch whose tag is the position of its kind. -/
def numberedBranch : Value :=
  .object [("type", .string "If"), ("condition", .string "a"), ("then", .array [
    .object [("type", .number (.integer 0)), ("text", .string "Hi")]])]

/-- The element is read alone, as an `If` with a heading, but not from a snapshot. -/
theorem numberedBranch_is_refused :
    numberedBranch.All Value.HasDistinctKeys ∧ numberedBranch.toTree.depth ≤ 124 ∧
      (∀ p ∈ numberedBranch.placed, p.2.isObject = true) ∧
      (∃ heading, Element.codec.ofText (numberedBranch.render false) =
        .ok (.ifBlock "a" [.widget (.heading .heading heading)] [])) ∧
      parseScreens (oneScreen (numberedBranch.render false)) = .error (.untypedElement "S" 1) := by
  have sound : numberedBranch.All Value.HasDistinctKeys := by decide +kernel
  have fits : numberedBranch.toTree.depth ≤ 124 := by decide +kernel
  have parsed := Tree.parse?_render_of_depth_le (v := numberedBranch) (by decide +kernel)
    (by decide +kernel) false
  refine ⟨sound, fits, by decide +kernel, ⟨⟨"Hi", none⟩, ?_⟩, ?_⟩
  · rw [Codec.ofText, parsed]
    rfl
  · rw [parseScreens_oneScreen parsed fits (Tree.toValue?_toTree sound)]
    rfl

end ScreenFlow.Design
