import ScreenFlow.Proofs.Codec.Strict
import ScreenFlow.Proofs.Codec.Unions
import ScreenFlow.Proofs.Flow.Records
import ScreenFlow.Proofs.Json.Nesting
import ScreenFlow.Proofs.Walk

/-!
# Nodes and documents that read what they write

A node is read from its JSON value, whatever is nested inside it, and so is a document.
-/

namespace ScreenFlow.Flow

open ScreenFlow.Codec ScreenFlow.Codec.Fields ScreenFlow.Json

namespace Node

/-! ## Lists of values -/

theorem listValues_eq (ns : List Node) : listValues ns = ns.map toValue := by
  induction ns with
  | nil => rfl
  | cons n ns ih => rw [listValues, ih, List.map_cons]

theorem caseValues_eq (cs : List (String × List Node)) :
    caseValues cs = cs.map fun c => (c.1, .array (c.2.map toValue)) := by
  induction cs with
  | nil => rfl
  | cons c cs ih => rw [caseValues, ih, listValues_eq, List.map_cons]

/-- The value of a list of nodes. -/
def branchValue (ns : List Node) : Value := .array (ns.map toValue)

/-- The value of named branches. -/
def casesValue (cs : List (String × List Node)) : Value :=
  .object (cs.map fun c => (c.1, branchValue c.2))

theorem all_branchValue {P : Value → Prop} {ns : List Node} :
    (branchValue ns).All P ↔ P (branchValue ns) ∧ ∀ n ∈ ns, n.toValue.All P := by
  rw [branchValue, Value.all_array, List.forall_mem_map]

theorem all_casesValue {P : Value → Prop} {cs : List (String × List Node)} :
    (casesValue cs).All P ↔ P (casesValue cs) ∧ ∀ c ∈ cs, (branchValue c.2).All P := by
  rw [casesValue, Value.all_object, List.forall_mem_map]

theorem toValue_ifBlock_none (condition : String) (thenBranch : List Node) :
    (ifBlock condition thenBranch none).toValue =
      tagged .ifBlock [("condition", .string condition), ("then", branchValue thenBranch)] := by
  rw [toValue, listValues_eq]
  rfl

theorem toValue_ifBlock_some (condition : String) (thenBranch elseBranch : List Node) :
    (ifBlock condition thenBranch (some elseBranch)).toValue =
      tagged .ifBlock [("condition", .string condition), ("then", branchValue thenBranch),
        ("else", branchValue elseBranch)] := by
  rw [toValue, listValues_eq, listValues_eq]
  rfl

theorem toValue_switchBlock (value : String) (cs : List (String × List Node)) :
    (switchBlock value cs).toValue =
      tagged .switchBlock [("value", .string value), ("cases", casesValue cs)] := by
  rw [toValue, caseValues_eq]
  rfl

theorem toValue_form (name : String) (children : List Node) :
    (form name children).toValue =
      tagged .form [("name", .string name), ("children", branchValue children)] := by
  rw [toValue, listValues_eq]
  rfl

/-! ## Tags -/

theorem tag_variant (t : NodeType) : (variant t).tag = t.name := by cases t <;> rfl

theorem find?_name (t : NodeType) : (NodeType.all.find? fun u => u.name == t.name) = some t := by
  cases t <;> rfl

/-- The variant of a type is found under its name. -/
theorem variant?_name (origin : Origin) (t : NodeType) :
    union.variant? origin (.string t.name) = .ok (variant t) := by
  -- The names of all types are distinct, so no other variant is found before.
  have found : (union.variants.find? fun v => v.tag == t.name) = some (variant t) := by
    show ((NodeType.all.map variant).find? _) = _
    rw [List.find?_map]
    simp only [Function.comp_def, tag_variant, find?_name]
    rfl
  simp only [TaggedUnion.variant?, found]

/-- The tree of a tagged object is read by the variant of its type. -/
theorem decode_tagged (origin : Origin) (t : NodeType) (members : List (String × Value))
    (distinct : (Entries.keys ((tagKey, .string t.name) :: members)).Nodup) :
    union.decode origin (tagged t members).toTree =
      (variant t).read (.members (union.memberSlots (Value.memberTrees members))) :=
  TaggedUnion.decode_tagged (variant?_name origin t) distinct

/-! ## Reading each type of node -/

/-- The attributes of a part are read back. -/
theorem read_part (p : Part) (sound : ∀ m ∈ p.members, m.2.All Value.HasDistinctKeys) :
    (variant p.nodeType).read (.members (union.memberSlots (Value.memberTrees p.members))) =
      .ok (.part p) := by
  cases p with
  | line style attrs =>
      cases style <;> exact Variant.read_ofRecord _ _ _ Line.fields _ attrs sound
  | body style attrs =>
      cases style <;> exact Variant.read_ofRecord _ _ _ BodyText.fields _ attrs sound
  | textInput attrs => exact Variant.read_ofRecord _ _ _ TextInput.fields _ attrs sound
  | textArea attrs => exact Variant.read_ofRecord _ _ _ TextArea.fields _ attrs sound
  | selector style attrs =>
      cases style <;> exact Variant.read_ofRecord _ _ _ Selector.fields _ attrs sound
  | optIn attrs => exact Variant.read_ofRecord _ _ _ OptIn.fields _ attrs sound
  | embeddedLink attrs => exact Variant.read_ofRecord _ _ _ EmbeddedLink.fields _ attrs sound
  | datePicker attrs => exact Variant.read_ofRecord _ _ _ DatePicker.fields _ attrs sound
  | calendarPicker attrs => exact Variant.read_ofRecord _ _ _ CalendarPicker.fields _ attrs sound
  | image attrs => exact Variant.read_ofRecord _ _ _ Image.fields _ attrs sound
  | imageCarousel attrs => exact Variant.read_ofRecord _ _ _ ImageCarousel.fields _ attrs sound
  | photoPicker attrs => exact Variant.read_ofRecord _ _ _ PhotoPicker.fields _ attrs sound
  | documentPicker attrs => exact Variant.read_ofRecord _ _ _ DocumentPicker.fields _ attrs sound
  | navigationList attrs => exact Variant.read_ofRecord _ _ _ NavigationList.fields _ attrs sound
  | footer attrs => exact Variant.read_ofRecord _ _ _ Footer.fields _ attrs sound

theorem read_ifBlock {condition : String} {t e : Tree} {ns es : List Node}
    (thenRead : union.decodeBranch t = .ok ns) (elseRead : union.decodeBranch e = .ok es)
    (set : e ≠ .null) :
    (variant .ifBlock).read (.members (union.memberSlots
      [("condition", .string condition), ("then", t), ("else", e)])) =
        .ok (.ifBlock condition ns (some es)) := by
  simp [variant, Variant.ofParts, TaggedUnion.memberSlots, readAll, ifFields, firstRepeat, locate,
    Functor.map, Seq.seq, Fields.comap, Source.map, Fields.required, requiredBranch, optionalBranch,
    single, Codec.text, Placed.pair, Except.map, Except.mapError, thenRead, elseRead]

theorem read_ifBlock_of_missing {condition : String} {t : Tree} {ns : List Node}
    (thenRead : union.decodeBranch t = .ok ns) :
    (variant .ifBlock).read (.members (union.memberSlots
      [("condition", .string condition), ("then", t)])) = .ok (.ifBlock condition ns none) := by
  simp [variant, Variant.ofParts, TaggedUnion.memberSlots, readAll, ifFields, firstRepeat, locate,
    Functor.map, Seq.seq, Fields.comap, Source.map, Fields.required, requiredBranch, optionalBranch,
    single, Codec.text, Placed.pair, Except.map, Except.mapError, thenRead]

theorem read_switchBlock {value : String} {c : Tree} {cases : Entries (List Node)}
    (casesRead : union.decodeCases c = .ok cases) :
    (variant .switchBlock).read (.members (union.memberSlots
      [("value", .string value), ("cases", c)])) = .ok (.switchBlock value cases) := by
  simp [variant, Variant.ofParts, TaggedUnion.memberSlots, readAll, switchFields, firstRepeat,
    locate, Functor.map, Seq.seq, Fields.comap, Source.map, Fields.required, requiredCases, single,
    Codec.text, Placed.pair, Except.map, Except.mapError, casesRead]

theorem read_form {name : String} {c : Tree} {ns : List Node}
    (childrenRead : union.decodeBranch c = .ok ns) :
    (variant .form).read (.members (union.memberSlots
      [("name", .string name), ("children", c)])) = .ok (.form name ns) := by
  simp [variant, Variant.ofParts, TaggedUnion.memberSlots, readAll, formFields, firstRepeat, locate,
    Functor.map, Seq.seq, Fields.comap, Source.map, Fields.required, requiredBranch, single,
    Codec.text, Placed.pair, Except.map, Except.mapError, childrenRead]

/-! ## Every node -/

/-- A node is read from the tree of its value, whatever is inside it. -/
theorem decode_toValue (n : Node) (origin : Origin) (sound : n.toValue.All Value.HasDistinctKeys) :
    union.decode origin n.toValue.toTree = .ok n := by
  -- Nodes in branches are read in place, whatever the origin of the outermost one.
  induction n using childInduction generalizing origin with
  | part p =>
      obtain ⟨keys, members⟩ := (Value.all_object _).mp sound
      rw [toValue, decode_tagged origin p.nodeType p.members keys]
      exact read_part p fun m member => members m (List.mem_cons_of_mem _ member)
  | ifBlock condition thenBranch elseBranch ihThen ihElse =>
      cases elseBranch with
      | none =>
          rw [toValue_ifBlock_none] at sound ⊢
          obtain ⟨keys, members⟩ := (Value.all_object _).mp sound
          have thenAll := all_branchValue.mp (members ("then", branchValue thenBranch) (by simp))
          have thenRead := TaggedUnion.decodeBranch_toTree fun n member =>
            ihThen n member .held (thenAll.2 n member)
          rw [decode_tagged origin .ifBlock _ keys]
          exact read_ifBlock_of_missing thenRead
      | some elseBranch =>
          rw [toValue_ifBlock_some] at sound ⊢
          obtain ⟨keys, members⟩ := (Value.all_object _).mp sound
          have thenAll := all_branchValue.mp (members ("then", branchValue thenBranch) (by simp))
          have elseAll := all_branchValue.mp (members ("else", branchValue elseBranch) (by simp))
          have thenRead := TaggedUnion.decodeBranch_toTree fun n member =>
            ihThen n member .held (thenAll.2 n member)
          have elseRead := TaggedUnion.decodeBranch_toTree fun n member =>
            ihElse elseBranch rfl n member .held (elseAll.2 n member)
          rw [decode_tagged origin .ifBlock _ keys]
          exact read_ifBlock thenRead elseRead Tree.noConfusion
  | switchBlock value cases ih =>
      rw [toValue_switchBlock] at sound ⊢
      obtain ⟨keys, members⟩ := (Value.all_object _).mp sound
      have all := all_casesValue.mp (members ("cases", casesValue cases) (by simp))
      have casesRead := TaggedUnion.decodeCases_toTree all.1 fun c among n member =>
        ih c among n member .held ((all_branchValue.mp (all.2 c among)).2 n member)
      rw [decode_tagged origin .switchBlock _ keys]
      exact read_switchBlock casesRead
  | form name children ih =>
      rw [toValue_form] at sound ⊢
      obtain ⟨keys, members⟩ := (Value.all_object _).mp sound
      have all := all_branchValue.mp (members ("children", branchValue children) (by simp))
      have childrenRead := TaggedUnion.decodeBranch_toTree fun n member =>
        ih n member .held (all.2 n member)
      rw [decode_tagged origin .form _ keys]
      exact read_form childrenRead

end Node

/-! ## Documents -/

instance : Codec.Lawful Node.codec where
  decode_encode origin n sound := by
    show Node.union.decodeWhole origin n.toValue.toTree = _
    rw [TaggedUnion.decodeWhole_toTree]
    exact Node.decode_toValue n origin sound

instance : Codec.Strict Node.codec where
  depth_le {origin room n m} read := by
    have whole : (if (n.toValue.treeWithin room).isLegible then
        Node.union.decode origin (n.toValue.treeWithin room) else .error .malformed) = .ok m := read
    -- A node is looked through before it is read, so one illegible leaf is enough to refuse it.
    by_contra deeper
    have illegible : ¬(n.toValue.treeWithin room).isLegible = true :=
      fun legible => deeper (Tree.isLegible_treeWithin_iff.mp legible)
    rw [if_neg illegible] at whole
    cases whole

instance : LawfulRecord DataField.fields := ⟨by decide, by unfold DataField.fields; infer_instance⟩

instance : Strict DataField.fields := by unfold DataField.fields; infer_instance

instance : LawfulRecord Layout.fields := ⟨by decide, by unfold Layout.fields; infer_instance⟩

instance : Strict Layout.fields := by unfold Layout.fields; infer_instance

instance : LawfulRecord Screen.fields := ⟨by decide, by unfold Screen.fields; infer_instance⟩

instance : Strict Screen.fields := by unfold Screen.fields; infer_instance

namespace Document

instance : LawfulRecord fields := ⟨by decide, by unfold fields; infer_instance⟩

instance : Strict fields := by unfold fields; infer_instance

instance : Codec.Lawful codec := inferInstanceAs (Codec.Lawful (Fields.codec _ _))

instance : Codec.Strict codec := inferInstanceAs (Codec.Strict (Fields.codec _ _))

/-- Reading the text of a document is reading its value with limited room. -/
theorem ofText_toText {d : Document} (readsBack : (codec.encode d).All Value.ReadsBack)
    (indented : Bool) : ofText (d.toText indented) =
      codec.decode .text ((codec.encode d).treeWithin maxDepth) := by
  rw [ofText, Codec.ofText, toText, Codec.toText, Tree.parse?_render readsBack]

/-- A document that is nested no deeper than can be read is read from its text, in both forms. -/
theorem ofText_toText_of_fits {d : Document} (distinct : (codec.encode d).All Value.HasDistinctKeys)
    (readsBack : (codec.encode d).All Value.ReadsBack) (fits : (codec.encode d).depth ≤ maxDepth)
    (indented : Bool) : ofText (d.toText indented) = .ok d := by
  rw [ofText_toText readsBack, Value.treeWithin_eq_toTree fits]
  exact Codec.Lawful.decode_encode .text d distinct

/-- From a text that is nested deeper no document is read at all. -/
theorem ofText_toText_of_deep {d : Document} (readsBack : (codec.encode d).All Value.ReadsBack)
    (deep : maxDepth < (codec.encode d).depth) (indented : Bool) :
    ∃ fault, ofText (d.toText indented) = .error fault := by
  rw [ofText_toText readsBack]
  cases read : codec.decode .text ((codec.encode d).treeWithin maxDepth) with
  | ok other => exact absurd (Codec.Strict.depth_le read) (Nat.not_le.mpr deep)
  | error fault => exact ⟨fault, rfl⟩

end Document

end ScreenFlow.Flow
