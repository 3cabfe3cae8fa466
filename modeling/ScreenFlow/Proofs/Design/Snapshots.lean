import ScreenFlow.Proofs.Design.Proper
import ScreenFlow.Proofs.Json.Nesting

/-!
# Screens and their texts

Screens that are written are read from their text again, bare or as the `screens` of an object: the
snapshot holds every element as a value, each of these has its kind checked at every depth, and is
read as the element that it was. The keys that the three readers look for are those that are
written.
-/

namespace ScreenFlow.Design

open ScreenFlow.Codec ScreenFlow.Codec.Fields ScreenFlow.Json

/-! ## Kinds -/

theorem kindOfMembers_tagged (k : Kind) (members : List (String × Value)) :
    kindOfMembers ((tagKey, .string k.name) :: members) = .ok k := by
  simp [kindOfMembers, Entries.get?, Element.ofName?_name]

/-- Values of known kinds are a branch without faults. -/
theorem checkBranch_eq_ok {vs : List Value} (known : ∀ v ∈ vs, ∃ k, checkKind v = .ok k) :
    checkBranch vs = .ok () := by
  induction vs with
  | nil => rfl
  | cons v vs ih =>
      obtain ⟨⟨k, first⟩, others⟩ := List.forall_mem_cons.mp known
      rw [checkBranch, first]
      exact ih others

/-- Branches without faults are cases without faults. -/
theorem checkCases_eq_ok {ms : List (String × Value)}
    (sound : ∀ m ∈ ms, checkIfBranch m.2 = .ok ()) : checkCases ms = .ok () := by
  induction ms with
  | nil => rfl
  | cons m ms ih =>
      obtain ⟨first, others⟩ := List.forall_mem_cons.mp sound
      rw [checkCases, first]
      exact ih others

theorem Widget.kind_ne (w : Widget) : w.kind ≠ .ifBlock ∧ w.kind ≠ .switchBlock := by
  cases w with
  | heading level => cases level <;> simp [kind]
  | body style => cases style <;> simp [kind]
  | textInput purpose => cases purpose <;> simp [kind]
  | selector style => cases style <;> simp [kind]
  | _ => simp [kind]

namespace Element

theorem checkIfBranch_branchValue {es : List Element}
    (known : ∀ e ∈ es, checkKind e.toValue = .ok e.kind) :
    checkIfBranch (branchValue es) = .ok () := by
  apply checkBranch_eq_ok
  rw [List.forall_mem_map]
  intro e member
  exact ⟨e.kind, known e member⟩

/-- The value of an element has its kind, and so has everything in its branches. -/
theorem checkKind_toValue (e : Element) : checkKind e.toValue = .ok e.kind := by
  induction e using branchInduction with
  | widget w =>
      obtain ⟨notIf, notSwitch⟩ := w.kind_ne
      rw [toValue, tagged, checkKind, kindOfMembers_tagged]
      simp only [bind, Except.bind]
      rfl
  | ifBlock condition thenBranch elseBranch ihThen ihElse =>
      have thenSound := checkIfBranch_branchValue ihThen
      have elseSound := checkIfBranch_branchValue ihElse
      rw [toValue_ifBlock, tagged, checkKind, kindOfMembers_tagged]
      simp [checkBranchAt, tagKey, thenSound, elseSound, bind, Except.bind, pure, Except.pure, kind]
  | switchBlock value cases ih =>
      have sound : checkIfCases (casesValue cases) = .ok () := by
        apply checkCases_eq_ok
        rw [List.forall_mem_map]
        intro c among
        exact checkIfBranch_branchValue (ih c among)
      rw [toValue_switchBlock, tagged, checkKind, kindOfMembers_tagged]
      simp [checkCasesAt, tagKey, sound, bind, Except.bind, pure, Except.pure, kind]

end Element

/-! ## Reading elements of a snapshot -/

/-- An element is read from its value, on whichever screen and at whichever position. -/
theorem readElement_toValue {e : Element} (sound : e.toValue.All Value.HasDistinctKeys)
    (screen : String) (position : Nat) : readElement screen position e.toValue = .ok e := by
  rw [readElement, Element.checkKind_toValue, Element.decode_toValue e .held sound]
  rfl

theorem readElements_map {es : List Element} (sound : ∀ e ∈ es, e.toValue.All Value.HasDistinctKeys)
    (screen : String) (position : Nat) :
    readElements screen position (es.map Element.toValue) = .ok es := by
  induction es generalizing position with
  | nil => rfl
  | cons e es ih =>
      obtain ⟨first, others⟩ := List.forall_mem_cons.mp sound
      rw [List.map_cons, readElements, readElement_toValue first, ih others]
      rfl

/-- A screen with its elements as values. -/
def Screen.raw (s : Screen) : RawScreen := ⟨s.id, s.title, s.elements.map Element.toValue⟩

/-- The elements of screens are read from their values. -/
theorem readScreens_raw {screens : List Screen}
    (sound : ∀ s ∈ screens, ∀ e ∈ s.elements, e.toValue.All Value.HasDistinctKeys) :
    readScreens (screens.map Screen.raw) = .ok screens := by
  induction screens with
  | nil => rfl
  | cons s screens ih =>
      obtain ⟨first, others⟩ := List.forall_mem_cons.mp sound
      have elements : readElements s.raw.id 1 s.raw.elements = .ok s.elements :=
        readElements_map first s.id 1
      rw [List.map_cons, readScreens, RawScreen.read, elements, ih others]
      rfl

/-! ## Reading snapshots -/

instance : LawfulRecord RawScreen.fields :=
  ⟨by decide, by unfold RawScreen.fields; infer_instance⟩

instance : Codec.Lawful RawScreen.listCodec :=
  inferInstanceAs (Codec.Lawful (.list (RawScreen.fields.codec "RawScreen")))

instance : LawfulRecord Snapshot.fields :=
  ⟨by decide, by unfold Snapshot.fields; infer_instance⟩

theorem Screen.write_fields (s : Screen) : fields.write s = [("id", .string s.id),
    ("title", .string s.title), ("elements", (Codec.list Element.codec).encode s.elements)] :=
  rfl

/-- Screens are written alike with and without their elements as values. -/
theorem encode_raw (screens : List Screen) :
    RawScreen.listCodec.encode (screens.map Screen.raw) = Screen.listCodec.encode screens := by
  have each (s : Screen) : (RawScreen.fields.codec "RawScreen").encode s.raw =
      (Screen.fields.codec "Screen").encode s := by
    have elements : (Codec.list .value).encode s.raw.elements =
        (Codec.list Element.codec).encode s.elements :=
      congrArg Value.array (List.map_id (s.elements.map Element.toValue))
    show Value.object [("id", .string s.id), ("title", .string s.title), ("elements", _)] =
      Value.object (Screen.fields.write s)
    rw [elements, Screen.write_fields]
  show Value.array ((screens.map Screen.raw).map _) = Value.array (screens.map _)
  rw [List.map_map]
  exact congrArg Value.array (List.map_congr_left fun s _ => each s)

namespace Snapshot

/-- A snapshot is read from the list of its screens. -/
theorem decode_list {raws : List RawScreen}
    (sound : (RawScreen.listCodec.encode raws).All Value.HasDistinctKeys) :
    decode (RawScreen.listCodec.encode raws).toTree = .ok ⟨raws⟩ := by
  have read := Codec.Lawful.decode_encode .held raws sound
  unfold decode
  rw [Tree.isLegible_toTree, if_pos rfl]
  show ((RawScreen.listCodec.decode .held _).map Snapshot.mk).mapError _ = _
  rw [read]
  rfl

/-- A snapshot is read from an object around its screens. -/
theorem decode_object {raws : List RawScreen}
    (sound : (RawScreen.listCodec.encode raws).All Value.HasDistinctKeys) :
    decode (Value.object [("screens", RawScreen.listCodec.encode raws)]).toTree = .ok ⟨raws⟩ := by
  have read := LawfulRecord.readAll_write fields "EditorSnapshot" .held ⟨raws⟩
    (List.forall_mem_singleton.mpr sound)
  unfold decode
  rw [Tree.isLegible_toTree, if_pos rfl]
  show (fields.readAll "EditorSnapshot" .held (.members ((fields.write ⟨raws⟩).map
    fun m => (m.1, m.2.toTree)))).mapError _ = _
  rw [read]
  rfl

/-- A snapshot whose value is not nested too deep is read from the text of that value. -/
theorem ofText_render {v : Value} (readsBack : v.All Value.ReadsBack) (fits : v.depth ≤ maxDepth) :
    ofText (v.render false) = decode v.toTree := by
  rw [ofText, Tree.parse?_render_of_depth_le readsBack fits]

end Snapshot

/-! ## Texts -/

/-- The text of an object with one member is the text of its value between braces and a key. -/
theorem render_wrapped (v : Value) :
    "\x7b\"screens\":" ++ v.render false ++ "\x7d" =
      (Value.object [("screens", v)]).render false := by
  have opened : "\x7b\"screens\":" = String.ofList
      ([Token.openObject, .string "screens", .colon].flatMap Token.chars) := by decide
  have closed : "\x7d" = String.ofList ([Token.closeObject].flatMap Token.chars) := by decide
  show _ ++ String.ofList (v.tokens.flatMap Token.chars) ++ _ =
    String.ofList ((Value.object [("screens", v)]).tokens.flatMap Token.chars)
  rw [opened, closed, ← String.ofList_append, ← String.ofList_append, ← List.flatMap_append,
    ← List.flatMap_append]
  simp [Value.tokens, Value.memberTokens]

/-- Screens are read from every value that the snapshot reads as these screens with their elements
as values, if it is not nested too deep. -/
theorem parseScreens_render {screens : List Screen} {v : Value}
    (sound : (Screen.listCodec.encode screens).All Value.HasDistinctKeys)
    (readsBack : v.All Value.ReadsBack) (fits : v.depth ≤ maxDepth)
    (decoded : Snapshot.decode v.toTree = .ok ⟨screens.map Screen.raw⟩) :
    parseScreens (v.render false) = .ok screens := by
  have elements : ∀ s ∈ screens, ∀ e ∈ s.elements, e.toValue.All Value.HasDistinctKeys := by
    intro s member e among
    have screen := ((Value.all_array _).mp sound).2 _ (List.mem_map_of_mem member)
    have listed := ((Value.all_object _).mp screen).2
      ("elements", (Codec.list Element.codec).encode s.elements) (by simp [Screen.write_fields])
    exact ((Value.all_array _).mp listed).2 _ (List.mem_map_of_mem among)
  rw [parseScreens, Snapshot.ofText_render readsBack fits, decoded]
  exact readScreens_raw elements

/--
Screens that are proper at every depth are read from their compact text, and from that text as the
`screens` of an object, unless it is nested too deep to be wrapped once more.
-/
theorem parseScreens_toText {screens : List Screen}
    (proper : ∀ s ∈ screens, ∀ e ∈ s.walk, e.IsProperHere)
    (readable : (Screen.listCodec.encode screens).All Value.HasReadableFloat)
    (fits : (Screen.listCodec.encode screens).depth ≤ 126) :
    parseScreens (Screen.listCodec.toText screens false) = .ok screens ∧
      parseScreens ("\x7b\"screens\":" ++ Screen.listCodec.toText screens false ++ "\x7d") =
        .ok screens := by
  have all := Screen.all_encode_listCodec proper
  have sound : (Screen.listCodec.encode screens).All Value.HasDistinctKeys :=
    all.imp fun w proper => proper.1
  have readsBack := Value.all_readsBack all readable
  have raws : (RawScreen.listCodec.encode (screens.map Screen.raw)).All Value.HasDistinctKeys := by
    rw [encode_raw]
    exact sound
  constructor
  · have decoded := Snapshot.decode_list raws
    rw [encode_raw] at decoded
    exact parseScreens_render sound readsBack (Nat.le_succ_of_le fits) decoded
  · have decoded := Snapshot.decode_object raws
    rw [encode_raw] at decoded
    have around : (Value.object [("screens", Screen.listCodec.encode screens)]).All
        Value.ReadsBack := by
      rw [Value.all_object]
      exact ⟨trivial, List.forall_mem_singleton.mpr readsBack⟩
    have deeper : (Value.object [("screens", Screen.listCodec.encode screens)]).depth ≤ maxDepth :=
      Value.depth_object_le_iff.mpr (List.forall_mem_singleton.mpr fits)
    rw [Codec.toText, render_wrapped]
    exact parseScreens_render sound around deeper decoded

/-- Screens with most forms that elements can have: cases in an order of their own with branches
nested in them, an empty second branch, options and a reference to them, attributes that are false,
zero, empty and unset, and a payload with numbers of each form and a text with escapes. -/
def surveyScreens : List Screen := [
  ⟨"RATING", "Rate \"us\"", [
    .widget (.heading .subheading ⟨"", none⟩),
    .widget (.body .caption ⟨"**", some .boldItalic, some false, none, none⟩),
    .ifBlock "new" [
      .switchBlock "tier" [
        ("silver", []),
        ("gold", [.widget (.selector .dropdown ⟨"Stars", "stars", none,
          .options [⟨"1", "One", none, some "\n\"", some false⟩], none, none, some 0, none, none,
          some ⟨.openUrl, none, some "https://example.com", none⟩⟩)]),
        ("bronze", [.ifBlock "" [] [.widget (.richText ⟨"ü", some true⟩)]])]] [],
    .widget (.textInput .phone ⟨"Phone", "phone", some .number, none, some 4294967295, none,
      some "", none, none, none, none⟩),
    .widget (.image ⟨"a.png", some 0, none, some .contain, some ⟨true, Binary64.one / 4⟩, none,
      some false⟩),
    .widget (.navigationList ⟨"more", none, none, [⟨"a", "A", some "", none, none, some [],
      some ⟨.navigate, some "", none, none⟩⟩], none, none, none⟩),
    .widget (.selector .chipsSelector ⟨"Tags", "tags", none, .reference "$\x7bdata.tags\x7d", none,
      none, none, none, none, none⟩),
    .widget (.footer ⟨"Next", none, some "", none, none, some ⟨.dataExchange, some "END", none,
      some [
        ("big", .number (.integer 18446744073709551615)),
        ("small", .number (.integer (-9223372036854775808))),
        ("escapes", .string "\\ \t \x7f ü"),
        ("inner", .object [("type", .null), ("a", .array []), ("b", .object [])])]⟩⟩)]⟩,
  ⟨"END", "", []⟩]

/-- The screens are read from their text, bare and wrapped. -/
theorem surveyScreens_are_parsed : (∀ s ∈ surveyScreens, ∀ e ∈ s.walk, e.IsProperHere) ∧
    (Screen.listCodec.encode surveyScreens).All Value.HasReadableFloat ∧
    (Screen.listCodec.encode surveyScreens).depth ≤ 126 ∧
    parseScreens (Screen.listCodec.toText surveyScreens false) = .ok surveyScreens ∧
    parseScreens ("\x7b\"screens\":" ++ Screen.listCodec.toText surveyScreens false ++ "\x7d") =
      .ok surveyScreens := by
  have proper : ∀ s ∈ surveyScreens, ∀ e ∈ s.walk, e.IsProperHere := by decide +kernel
  have readable : (Screen.listCodec.encode surveyScreens).All Value.HasReadableFloat := by
    decide +kernel
  have fits : (Screen.listCodec.encode surveyScreens).depth ≤ 126 := by decide +kernel
  exact ⟨proper, readable, fits, parseScreens_toText proper readable fits⟩

end ScreenFlow.Design
