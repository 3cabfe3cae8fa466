import ScreenFlow.Proofs.Codec.Unions
import ScreenFlow.Proofs.Design.Records
import ScreenFlow.Proofs.Walk

/-!
# Elements that read what they write

An element is read from its JSON value, whatever is nested in its branches.
-/

namespace ScreenFlow.Design.Element

open ScreenFlow.Codec ScreenFlow.Codec.Fields ScreenFlow.Json

/-! ## Lists of values -/

theorem branchValues_eq (es : List Element) : branchValues es = es.map toValue := by
  induction es with
  | nil => rfl
  | cons e es ih => rw [branchValues, ih, List.map_cons]

theorem caseValues_eq (cs : List (String × List Element)) :
    caseValues cs = cs.map fun c => (c.1, .array (c.2.map toValue)) := by
  induction cs with
  | nil => rfl
  | cons c cs ih => rw [caseValues, ih, branchValues_eq, List.map_cons]

/-- The value of a branch. -/
def branchValue (es : List Element) : Value := .array (es.map toValue)

/-- The value of named branches. -/
def casesValue (cs : List (String × List Element)) : Value :=
  .object (cs.map fun c => (c.1, branchValue c.2))

theorem all_branchValue {P : Value → Prop} {es : List Element} :
    (branchValue es).All P ↔ P (branchValue es) ∧ ∀ e ∈ es, e.toValue.All P := by
  rw [branchValue, Value.all_array, List.forall_mem_map]

theorem all_casesValue {P : Value → Prop} {cs : List (String × List Element)} :
    (casesValue cs).All P ↔ P (casesValue cs) ∧ ∀ c ∈ cs, (branchValue c.2).All P := by
  rw [casesValue, Value.all_object, List.forall_mem_map]

theorem toValue_ifBlock (condition : String) (thenBranch elseBranch : List Element) :
    (ifBlock condition thenBranch elseBranch).toValue =
      tagged .ifBlock [("condition", .string condition), ("then", branchValue thenBranch),
        ("else", branchValue elseBranch)] := by
  rw [toValue, branchValues_eq, branchValues_eq]
  rfl

theorem toValue_switchBlock (value : String) (cs : List (String × List Element)) :
    (switchBlock value cs).toValue =
      tagged .switchBlock [("value", .string value), ("cases", casesValue cs)] := by
  rw [toValue, caseValues_eq]
  rfl

/-! ## Tags -/

theorem tag_variant (k : Kind) : (variant k).tag = k.name := by cases k <;> rfl

/-- The kind of a name is the one that has it. -/
theorem ofName?_name (k : Kind) : Kind.ofName? k.name = some k := by cases k <;> rfl

/-- The variant of a name is that of the kind that has it. -/
theorem find?_variants (name : String) :
    (union.variants.find? fun v => v.tag == name) = (Kind.ofName? name).map variant := by
  show ((Kind.all.map variant).find? _) = _
  rw [List.find?_map]
  simp only [Function.comp_def, tag_variant]
  rfl

/-- The variant of a kind is found under its name. -/
theorem variant?_name (origin : Origin) (k : Kind) :
    union.variant? origin (.string k.name) = .ok (variant k) := by
  simp only [TaggedUnion.variant?, find?_variants, ofName?_name, Option.map_some]

/-- The tree of a tagged object is read by the variant of its kind. -/
theorem decode_tagged (origin : Origin) (k : Kind) (members : List (String × Value))
    (distinct : (Entries.keys ((tagKey, .string k.name) :: members)).Nodup) :
    union.decode origin (tagged k members).toTree =
      (variant k).read (.members (union.memberSlots (Value.memberTrees members))) :=
  TaggedUnion.decode_tagged (variant?_name origin k) distinct

/-! ## Reading each kind of element -/

/-- The attributes of a widget are read back. -/
theorem read_widget (w : Widget) (sound : ∀ m ∈ w.members, m.2.All Value.HasDistinctKeys) :
    (variant w.kind).read (.members (union.memberSlots (Value.memberTrees w.members))) =
      .ok (.widget w) := by
  cases w with
  | heading level attrs =>
      cases level <;> exact Variant.read_ofRecord _ _ _ Heading.fields _ attrs sound
  | body style attrs =>
      cases style <;> exact Variant.read_ofRecord _ _ _ BodyText.fields _ attrs sound
  | richText attrs => exact Variant.read_ofRecord _ _ _ RichText.fields _ attrs sound
  | textInput purpose attrs =>
      cases purpose <;> exact Variant.read_ofRecord _ _ _ TextInput.fields _ attrs sound
  | textArea attrs => exact Variant.read_ofRecord _ _ _ TextArea.fields _ attrs sound
  | selector style attrs =>
      cases style <;> exact Variant.read_ofRecord _ _ _ Selector.fields _ attrs sound
  | optIn attrs => exact Variant.read_ofRecord _ _ _ OptIn.fields _ attrs sound
  | embeddedLink attrs => exact Variant.read_ofRecord _ _ _ EmbeddedLink.fields _ attrs sound
  | datePicker attrs => exact Variant.read_ofRecord _ _ _ DatePicker.fields _ attrs sound
  | calendarPicker attrs => exact Variant.read_ofRecord _ _ _ CalendarPicker.fields _ attrs sound
  | image attrs => exact Variant.read_ofRecord _ _ _ Image.fields _ attrs sound
  | imageCarousel attrs => exact Variant.read_ofRecord _ _ _ ImageCarousel.fields _ attrs sound
  | photoPicker attrs => exact Variant.read_ofRecord _ _ _ PhotoPicker.fields _ attrs sound
  | documentPicker attrs => exact Variant.read_ofRecord _ _ _ DocumentPicker.fields _ attrs sound
  | navigationList attrs => exact Variant.read_ofRecord _ _ _ NavigationList.fields _ attrs sound
  | footer attrs => exact Variant.read_ofRecord _ _ _ Footer.fields _ attrs sound

theorem read_ifBlock {condition : String} {t e : Tree} {thenBranch elseBranch : List Element}
    (thenRead : union.decodeBranch t = .ok thenBranch)
    (elseRead : union.decodeBranch e = .ok elseBranch) :
    (variant .ifBlock).read (.members (union.memberSlots
      [("condition", .string condition), ("then", t), ("else", e)])) =
        .ok (.ifBlock condition thenBranch elseBranch) := by
  simp [variant, Variant.ofParts, TaggedUnion.memberSlots, readAll, ifFields, firstRepeat, locate,
    Functor.map, Seq.seq, Fields.comap, Source.map, defaulted, defaultedBranch, single, Codec.text,
    Placed.pair, Except.map, Except.mapError, thenRead, elseRead]

theorem read_switchBlock {value : String} {c : Tree} {cases : Entries (List Element)}
    (casesRead : union.decodeCases c = .ok cases) :
    (variant .switchBlock).read (.members (union.memberSlots
      [("value", .string value), ("cases", c)])) = .ok (.switchBlock value cases) := by
  simp [variant, Variant.ofParts, TaggedUnion.memberSlots, readAll, switchFields, firstRepeat,
    locate, Functor.map, Seq.seq, Fields.comap, Source.map, defaulted, defaultedCases, single,
    Codec.text, Placed.pair, Except.map, Except.mapError, casesRead]

/-! ## Every element -/

/-- An element is read from the tree of its value, whatever is inside it. -/
theorem decode_toValue (e : Element) (origin : Origin)
    (sound : e.toValue.All Value.HasDistinctKeys) :
    union.decode origin e.toValue.toTree = .ok e := by
  -- Elements in branches are read in place, whatever the origin of the outermost one.
  induction e using branchInduction generalizing origin with
  | widget w =>
      obtain ⟨keys, members⟩ := (Value.all_object _).mp sound
      rw [toValue, decode_tagged origin w.kind w.members keys]
      exact read_widget w fun m member => members m (List.mem_cons_of_mem _ member)
  | ifBlock condition thenBranch elseBranch ihThen ihElse =>
      rw [toValue_ifBlock] at sound ⊢
      obtain ⟨keys, members⟩ := (Value.all_object _).mp sound
      have thenAll := all_branchValue.mp (members ("then", branchValue thenBranch) (by simp))
      have elseAll := all_branchValue.mp (members ("else", branchValue elseBranch) (by simp))
      have thenRead := TaggedUnion.decodeBranch_toTree fun e member =>
        ihThen e member .held (thenAll.2 e member)
      have elseRead := TaggedUnion.decodeBranch_toTree fun e member =>
        ihElse e member .held (elseAll.2 e member)
      rw [decode_tagged origin .ifBlock _ keys]
      exact read_ifBlock thenRead elseRead
  | switchBlock value cases ih =>
      rw [toValue_switchBlock] at sound ⊢
      obtain ⟨keys, members⟩ := (Value.all_object _).mp sound
      have all := all_casesValue.mp (members ("cases", casesValue cases) (by simp))
      have casesRead := TaggedUnion.decodeCases_toTree all.1 fun c among e member =>
        ih c among e member .held ((all_branchValue.mp (all.2 c among)).2 e member)
      rw [decode_tagged origin .switchBlock _ keys]
      exact read_switchBlock casesRead

end ScreenFlow.Design.Element

namespace ScreenFlow.Design

open ScreenFlow.Codec ScreenFlow.Json

instance : Codec.Lawful Element.codec where
  decode_encode origin e sound := by
    show Element.union.decodeWhole origin e.toValue.toTree = _
    rw [TaggedUnion.decodeWhole_toTree]
    exact Element.decode_toValue e origin sound

end ScreenFlow.Design
