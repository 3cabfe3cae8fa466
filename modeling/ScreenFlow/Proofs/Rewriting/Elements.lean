import ScreenFlow.Proofs.Design.Snapshots
import ScreenFlow.Proofs.Flow.Nodes
import ScreenFlow.Proofs.Rewriting.Records

/-!
# Elements under the rules

The JSON of the node of an element is the JSON of the element under the rules, whatever is nested in
its branches, up to the order of members in each node: the records of a flow list their fields in an
order of their own. Every kind is checked member by member; branches follow by induction.
-/

namespace ScreenFlow.Rewriting

open ScreenFlow.Codec ScreenFlow.Codec.Fields ScreenFlow.Json ScreenFlow.Compile
open ScreenFlow.Design (Element Kind Widget kindOfMembers_tagged)

/-! ## Widgets -/

theorem encode_inputType : InputType.codec.encode .email = .string "email" ∧
    InputType.codec.encode .password = .string "password" ∧
    InputType.codec.encode .phone = .string "phone" := ⟨rfl, rfl, rfl⟩

section

attribute [local simp] elementMember tagKey boundKeys takesOne impliedInputType? Widget.kind
  Widget.members Flow.Part.members mapWidget takesSeveral attributeMember_encode
  attributeMember_orNull kebab_keys kebab_words rewriteAction_orNull List.Perm.swap

/-- The members of a widget are mapped by the rules, up to their order. -/
theorem perm_members {w : Widget} (proper : ∀ a ∈ w.actions, a.IsProper) :
    (mapWidget Context.empty w).members.Perm
      (w.members.flatMap fun m => elementMember w.kind m.1 m.2) := by
  -- Both records are written out, and the rule for each member decides what becomes of it. Items
  -- and the actions of footers have rules of their own, which are settled before.
  cases w with
  | heading level attrs => cases level <;> simp [Design.Heading.fields, Flow.Line.fields]
  | body style attrs =>
      cases style <;> simp [Design.BodyText.fields, Flow.BodyText.fields, mapBody]
  | richText attrs => simp [Design.RichText.fields, Flow.Line.fields]
  | textInput purpose attrs =>
      cases purpose <;>
        simp [Design.TextInput.fields, Flow.TextInput.fields, mapTextInput, inputType,
          encode_inputType]
  | textArea attrs => simp [Design.TextArea.fields, Flow.TextArea.fields, mapTextArea]
  | selector style attrs =>
      cases style <;> simp [Design.Selector.fields, Flow.Selector.fields, mapSelector]
  | optIn attrs => simp [Design.OptIn.fields, Flow.OptIn.fields, mapOptIn]
  | embeddedLink attrs =>
      simp [Design.EmbeddedLink.fields, Flow.EmbeddedLink.fields, mapEmbeddedLink]
  | datePicker attrs => simp [Design.DatePicker.fields, Flow.DatePicker.fields, mapDatePicker]
  | calendarPicker attrs =>
      unfold mapWidget Flow.Part.members Widget.members Flow.CalendarPicker.fields
        Design.CalendarPicker.fields
      simp [mapCalendarPicker]
  | image attrs => simp [Design.Image.fields, Flow.Image.fields, mapImage]
  | imageCarousel attrs =>
      have images := mapItems_list attrs.images fun image _ => rewriteImage_encode image
      simp [Design.ImageCarousel.fields, Flow.ImageCarousel.fields, mapImageCarousel, images]
  | photoPicker attrs =>
      simp [Design.PhotoPicker.fields, Flow.PhotoPicker.fields, mapPhotoPicker]
  | documentPicker attrs =>
      simp [Design.DocumentPicker.fields, Flow.DocumentPicker.fields, mapDocumentPicker]
  | navigationList attrs =>
      have items := mapItems_list attrs.items fun item _ => rewriteItem_encode item
      simp [Design.NavigationList.fields, Flow.NavigationList.fields, mapNavigationList, items]
  | footer attrs =>
      have action : rewriteAction true (Design.Action.codec.orNull.encode attrs.onClickAction) =
          Flow.Action.codec.orNull.encode
            (attrs.onClickAction.map (mapFooterAction Context.empty)) := by
        refine rewrite_orNull rfl attrs.onClickAction ?_
        intro a set
        apply rewriteAction_encode_footer
        intro payload own
        obtain ⟨⟨distinct, -⟩, -⟩ :=
          (Value.all_object payload).mp (proper a (Option.mem_toList.mpr set) payload own)
        exact distinct
      simp [Design.Footer.fields, Flow.Footer.fields, mapFooter, action]

end

theorem nodeType_mapWidget (w : Widget) :
    (mapWidget Context.empty w).nodeType.name = typeName w.kind := by
  cases w with
  | heading level => cases level <;> rfl
  | body style => cases style <;> rfl
  | textInput purpose => cases purpose <;> rfl
  | selector style => cases style <;> rfl
  | _ => rfl

/-! ## Branches -/

/-- The keys of branches. -/
def branchKeys : List String := ["then", "else", "cases"]

/-- Without branches every member is rewritten by the rules for its kind. -/
theorem rewriteMembers_eq {k : Kind} {ms : List (String × Value)}
    (plain : ∀ m ∈ ms, m.1 ∉ branchKeys) :
    rewriteMembers k ms = ms.flatMap fun m => elementMember k m.1 m.2 := by
  induction ms with
  | nil => rfl
  | cons m ms ih =>
      obtain ⟨first, others⟩ := List.forall_mem_cons.mp plain
      simp only [branchKeys, List.mem_cons, List.not_mem_nil, or_false, not_or] at first
      rw [rewriteMembers, ih others, List.flatMap_cons]
      simp [first]

theorem plain_members (w : Widget) : ∀ m ∈ w.members, m.1 ∉ branchKeys := by
  have names : ∀ key ∈ w.keys, key ∉ branchKeys := by
    cases w <;> (simp only [Widget.keys]; decide)
  intro m member
  exact names m.1 (w.keys_members.subset (List.mem_map_of_mem member))

/-- A second branch is dropped where it is empty. -/
theorem rewriteMembers_ifBlock (condition : String) (thenBranch elseBranch : Value) :
    rewriteMembers .ifBlock
        [("condition", .string condition), ("then", thenBranch), ("else", elseBranch)] =
      ("condition", .string condition) :: ("then", rewriteBranch thenBranch) ::
        if elseBranch = .array [] then [] else [("else", rewriteBranch elseBranch)] := by
  simp [rewriteMembers, elementMember, attributeMember, tagKey, boundKeys, kebab_words]

theorem rewriteMembers_switchBlock (value : String) (cases : Value) :
    rewriteMembers .switchBlock [("value", .string value), ("cases", cases)] =
      [("value", .string value), ("cases", rewriteCases cases)] := by
  simp [rewriteMembers, elementMember, attributeMember, tagKey, boundKeys, kebab_words]

theorem rewriteItems_eq (vs : List Value) : rewriteItems vs = vs.map rewrite := by
  induction vs with
  | nil => rfl
  | cons v vs ih => rw [rewriteItems, ih, List.map_cons]

theorem rewriteNamed_eq (ms : List (String × Value)) :
    rewriteNamed ms = ms.map fun m => (m.1, rewriteBranch m.2) := by
  induction ms with
  | nil => rfl
  | cons m ms ih => rw [rewriteNamed, ih, List.map_cons]

/-- The tag of an element is rewritten by its kind, and so are the members after it. -/
theorem rewrite_tagged (k : Kind) (ms : List (String × Value)) :
    rewrite (Element.tagged k ms) =
      .object ((tagKey, .string (typeName k)) :: rewriteMembers k ms) := by
  rw [Element.tagged, rewrite, kindOfMembers_tagged]
  simp [rewriteMembers, elementMember, tagKey]

/-! ## Every element -/

theorem SameMembers.refl (ms : List (String × Value)) : SameMembers ms ms := by
  induction ms with
  | nil => exact .nil
  | cons m ms ih => exact .same m ih

/-- A branch whose nodes are those of its elements is the same as theirs. -/
theorem sameNodes_map {f g : Element → Value} {es : List Element}
    (each : ∀ e ∈ es, SameNode (f e) (g e)) : SameNodes (es.map f) (es.map g) := by
  induction es with
  | nil => exact .nil
  | cons e es ih =>
      obtain ⟨first, others⟩ := List.forall_mem_cons.mp each
      exact .cons first (ih others)

theorem sameCases_map {f g : Element → Value} {cs : List (String × List Element)}
    (each : ∀ c ∈ cs, ∀ e ∈ c.2, SameNode (f e) (g e)) :
    SameCases (cs.map fun c => (c.1, .array (c.2.map f)))
      (cs.map fun c => (c.1, .array (c.2.map g))) := by
  induction cs with
  | nil => exact .nil
  | cons c cs ih =>
      obtain ⟨first, others⟩ := List.forall_mem_cons.mp each
      exact .cons (sameNodes_map first) (ih others)

/-- The value of a branch under the rules. -/
theorem rewriteBranch_branchValue (es : List Element) :
    rewriteBranch (Element.branchValue es) = .array (es.map fun e => rewrite e.toValue) := by
  rw [Element.branchValue, rewriteBranch, rewriteItems_eq, List.map_map]
  rfl

theorem rewriteCases_casesValue (cs : List (String × List Element)) :
    rewriteCases (Element.casesValue cs) =
      .object (cs.map fun c => (c.1, .array (c.2.map fun e => rewrite e.toValue))) := by
  rw [Element.casesValue, rewriteCases, rewriteNamed_eq, List.map_map]
  simp only [Function.comp_def, rewriteBranch_branchValue]

/-- The value of the branch that elements are mapped to. -/
theorem branchValue_map (es : List Element) :
    Flow.Node.branchValue (es.map (mapElement Context.empty)) =
      .array (es.map fun e => (mapElement Context.empty e).toValue) := by
  rw [Flow.Node.branchValue, List.map_map]
  rfl

theorem casesValue_map (cs : List (String × List Element)) :
    Flow.Node.casesValue (cs.map fun c => (c.1, c.2.map (mapElement Context.empty))) =
      .object (cs.map fun c => (c.1, .array (c.2.map fun e =>
        (mapElement Context.empty e).toValue))) := by
  rw [Flow.Node.casesValue, List.map_map]
  simp only [Function.comp_def, branchValue_map]

/-- The node of an element is written as the element under the rules. -/
theorem sameNode_mapElement {e : Element} (proper : e.IsProper) :
    SameNode (mapElement Context.empty e).toValue (rewrite e.toValue) := by
  -- In branches nodes may have their members in another order, so equality would not carry through.
  induction e using Element.branchInduction with
  | widget w =>
      rw [mapElement, Flow.Node.toValue, Flow.Node.tagged, nodeType_mapWidget, Element.toValue,
        rewrite_tagged, rewriteMembers_eq (plain_members w)]
      exact .node ((perm_members (Element.isProper_widget.mp proper)).cons _) (.refl _)
  | ifBlock condition thenBranch elseBranch ihThen ihElse =>
      obtain ⟨thenProper, elseProper⟩ := Element.isProper_ifBlock.mp proper
      have thenSame := sameNodes_map fun e member => ihThen e member (thenProper e member)
      have elseSame := sameNodes_map fun e member => ihElse e member (elseProper e member)
      rw [mapElement_ifBlock, Element.toValue_ifBlock, rewrite_tagged]
      rw [rewriteMembers_ifBlock, rewriteBranch_branchValue, rewriteBranch_branchValue]
      cases elseBranch with
      | nil =>
          have unset : Element.branchValue [] = .array [] := rfl
          rw [mapElse, List.isEmpty_nil, if_pos rfl, Flow.Node.toValue_ifBlock_none,
            Flow.Node.tagged, branchValue_map, if_pos unset]
          exact .node (.refl _) (.same _ (.same _ (.branch (.inl rfl) thenSame .nil)))
      | cons e es =>
          have set : Element.branchValue (e :: es) ≠ .array [] := by simp [Element.branchValue]
          rw [mapElse, List.isEmpty_cons, if_neg Bool.false_ne_true,
            Flow.Node.toValue_ifBlock_some, Flow.Node.tagged, branchValue_map, branchValue_map,
            if_neg set]
          exact .node (.refl _) (.same _ (.same _ (.branch (.inl rfl) thenSame
            (.branch (.inr rfl) elseSame .nil))))
  | switchBlock value cases ih =>
      obtain ⟨-, each⟩ := Element.isProper_switchBlock.mp proper
      have same := sameCases_map fun c among e member => ih c among e member (each c among e member)
      rw [mapElement_switchBlock, Element.toValue_switchBlock, rewrite_tagged,
        rewriteMembers_switchBlock, rewriteCases_casesValue, Flow.Node.toValue_switchBlock,
        Flow.Node.tagged, casesValue_map]
      exact .node (.refl _) (.same _ (.same _ (.cases same .nil)))

/-! ## What looks unset and is not -/

theorem name_notMem_blanks (k : Kind) : Value.string k.name ∉ blanks := by
  cases k <;> simp [blanks, Kind.name]

/-- No rule but those for replaced attributes changes a value that looks as if it were unset. -/
theorem mem_elementMember {k : Kind} {key : String} {v : Value} (untagged : key ≠ tagKey)
    (blank : v ∈ blanks) (kept : ¬IsReplaced k key v) :
    (attributeKey key, v) ∈ elementMember k key v := by
  obtain ⟨set, action, items⟩ : v ≠ .null ∧ (∀ inFooter, rewriteAction inFooter v = v) ∧
      ∀ rule, mapItems rule v = v := by
    simp only [blanks, List.mem_cons, List.not_mem_nil, or_false] at blank
    rcases blank with rfl | rfl | rfl | rfl | rfl | rfl <;>
      exact ⟨nofun, fun _ => rfl, fun _ => rfl⟩
  simp only [IsReplaced, not_or, not_and] at kept
  obtain ⟨bounds, input, -⟩ := kept
  have ofAttribute (action : Value) (same : action = v) :
      (kebab key, v) ∈ attributeMember key action := by
    rw [same, attributeMember, if_neg set]
    exact List.mem_singleton_self _
  unfold elementMember
  rw [if_neg untagged]
  by_cases isInput : key = "inputType"
  · have none : impliedInputType? k = none := by simpa using input isInput
    subst isInput
    simp [none, attributeKey, attributeMember, set]
  · rw [if_neg isInput, if_neg fun both => bounds both.1 both.2]
    by_cases isItems : key = "items"
    · subst isItems
      simp [attributeKey, attributeMember, items, set, kebab_keys]
    · rw [attributeKey, if_neg isItems, if_neg isItems]
      split
      · exact ofAttribute _ (action _)
      · split
        · exact ofAttribute _ (items _)
        · exact ofAttribute _ rfl

/-- A branch that looks as if it were unset has no elements. -/
theorem eq_nil_of_blank {es : List Element} (blank : Element.branchValue es ∈ blanks) :
    es = [] := by
  simpa [Element.branchValue, blanks] using blank

/-- The first members of the node of an `If`. -/
theorem members_mapElement_ifBlock (condition : String) (thenBranch elseBranch : List Element) :
    ∃ ms, members (mapElement Context.empty (.ifBlock condition thenBranch elseBranch)).toValue =
      (tagKey, .string Flow.NodeType.ifBlock.name) :: ("condition", .string condition) ::
        ("then", Flow.Node.branchValue (thenBranch.map (mapElement Context.empty))) :: ms := by
  rw [mapElement_ifBlock]
  cases mapElse Context.empty elseBranch with
  | none => exact ⟨[], by rw [Flow.Node.toValue_ifBlock_none]; rfl⟩
  | some ns =>
      exact ⟨[("else", Flow.Node.branchValue ns)], by rw [Flow.Node.toValue_ifBlock_some]; rfl⟩

/-- What an element says of itself with such a value, its node says with the same value. -/
theorem mem_members_mapElement {e : Element} (proper : e.IsProperHere) {m : String × Value}
    (member : m ∈ members e.toValue) (blank : m.2 ∈ blanks)
    (kept : ¬IsReplaced e.kind m.1 m.2) :
    (attributeKey m.1, m.2) ∈ members (mapElement Context.empty e).toValue := by
  cases e with
  | widget w =>
      rcases List.mem_cons.mp member with rfl | own
      · exact absurd blank (name_notMem_blanks w.kind)
      · have untagged : m.1 ≠ tagKey := by
          intro same
          have fresh := (List.nodup_cons.mp w.nodup_tagged_keys).1
          exact fresh (same ▸ List.mem_map_of_mem own)
        have rewritten : (attributeKey m.1, m.2) ∈
            w.members.flatMap fun m => elementMember w.kind m.1 m.2 :=
          List.mem_flatMap.mpr ⟨m, own, mem_elementMember untagged blank kept⟩
        exact List.mem_cons_of_mem _ ((perm_members proper).mem_iff.mpr rewritten)
  | ifBlock condition thenBranch elseBranch =>
      obtain ⟨ms, node⟩ := members_mapElement_ifBlock condition thenBranch elseBranch
      rw [Element.toValue_ifBlock] at member
      simp only [members, Element.tagged, List.mem_cons, List.not_mem_nil, or_false] at member
      rw [node]
      rcases member with rfl | rfl | rfl | rfl
      · exact absurd blank (name_notMem_blanks .ifBlock)
      · simp [attributeKey, kebab_words]
      · obtain rfl := eq_nil_of_blank blank
        simp [attributeKey, kebab_words, Element.branchValue, Flow.Node.branchValue]
      · obtain rfl := eq_nil_of_blank blank
        exact absurd (.inr (.inr ⟨rfl, rfl⟩)) kept
  | switchBlock value cases =>
      rw [Element.toValue_switchBlock] at member
      simp only [members, Element.tagged, List.mem_cons, List.not_mem_nil, or_false] at member
      rw [mapElement_switchBlock, Flow.Node.toValue_switchBlock]
      rcases member with rfl | rfl | rfl
      · exact absurd blank (name_notMem_blanks .switchBlock)
      · simp [Flow.Node.tagged, members, attributeKey, kebab_words]
      · simp [blanks, Element.casesValue] at blank

/-! ## The rules and no others -/

/-- The node of an element that is compiled alone is written as the element under the rules, up to
the order of members in each node; and whatever an element at any depth says with `false`, zero, an
empty text or an empty list, its node says too, unless a rule replaces that attribute. Numbers in
designs are finite; others, of which a design that was read holds none, would be written as null. -/
theorem mapElement_follows_rules {e : Element} (proper : e.IsProper) :
    SameNode (mapElement Context.empty e).toValue (rewrite e.toValue) ∧
      ∀ inner ∈ e.walk, ∀ m ∈ members inner.toValue, m.2 ∈ blanks →
        ¬IsReplaced inner.kind m.1 m.2 →
          (attributeKey m.1, m.2) ∈ members (mapElement Context.empty inner).toValue := by
  refine ⟨sameNode_mapElement proper, ?_⟩
  intro inner inside m member blank kept
  exact mem_members_mapElement (proper inner inside) member blank kept

/-- An element in which every rule has something to do. -/
def tierElement : Element :=
  .ifBlock "new" [
    .switchBlock "tier" [
      ("silver", []),
      ("goldTier", [.widget (.selector .dropdown ⟨"Stars", "stars", none,
        .options [⟨"oneStar", "One", none, none, some false⟩], some false, some 0, some 1, none,
        none, some ⟨.updateData, some "END", none, some [("newTier", .null)]⟩⟩)])],
    .widget (.textInput .phone ⟨"Phone", "phone", some .number, none, some 0, none, some "", none,
      none, none, some false⟩),
    .widget (.navigationList ⟨"more", none, some "", [⟨"a", "A", none, some "", none, some [],
      some ⟨.navigate, some "", none, none⟩⟩], none, none, none⟩),
    .widget (.footer ⟨"Next", none, none, none, none, some ⟨.navigate, some "END", none, none⟩⟩)] []

theorem tierElement_follows_rules : tierElement.IsProper ∧
    SameNode (mapElement Context.empty tierElement).toValue (rewrite tierElement.toValue) ∧
      ∀ inner ∈ tierElement.walk, ∀ m ∈ members inner.toValue, m.2 ∈ blanks →
        ¬IsReplaced inner.kind m.1 m.2 →
          (attributeKey m.1, m.2) ∈ members (mapElement Context.empty inner).toValue := by
  have proper : tierElement.IsProper := by decide +kernel
  exact ⟨proper, mapElement_follows_rules proper⟩

/-- A footer that leaves its screen, under the rules. -/
example : rewrite (.object [("type", .string "Footer"), ("label", .string ""),
      ("leftCaption", .null), ("onClickAction", .object [("name", .string "navigate"),
        ("next", .string "END"), ("url", .null), ("payload", .null)])]) =
    .object [("type", .string "Footer"), ("label", .string ""),
      ("on-click-action", .object [("name", .string "navigate"),
        ("next", .object [("type", .string "screen"), ("name", .string "END")]),
        ("payload", .object [])])] := by decide +kernel

end ScreenFlow.Rewriting
