import ScreenFlow.Compile.Mapping
import ScreenFlow.Proofs.Codec.Records
import ScreenFlow.Proofs.Codec.Vocabulary
import ScreenFlow.Proofs.Design.Records
import ScreenFlow.Proofs.Entries
import ScreenFlow.Proofs.Flow.Records
import ScreenFlow.Proofs.Rewriting.Rules

/-!
# Records under the rules

The JSON of every record of a flow is that of the design's record under the rules.
-/

namespace ScreenFlow.Rewriting

open ScreenFlow.Codec ScreenFlow.Codec.Fields ScreenFlow.Json ScreenFlow.Compile

/-! ## Keys -/

/-- The keys of one word are left as they are. -/
theorem kebab_words :
    kebab "text" = "text" ∧ kebab "visible" = "visible" ∧ kebab "strikethrough" = "strikethrough" ∧
    kebab "markdown" = "markdown" ∧ kebab "label" = "label" ∧ kebab "name" = "name" ∧
    kebab "required" = "required" ∧ kebab "pattern" = "pattern" ∧ kebab "enabled" = "enabled" ∧
    kebab "description" = "description" ∧ kebab "title" = "title" ∧ kebab "mode" = "mode" ∧
    kebab "src" = "src" ∧ kebab "width" = "width" ∧ kebab "height" = "height" ∧
    kebab "images" = "images" ∧ kebab "id" = "id" ∧ kebab "metadata" = "metadata" ∧
    kebab "badge" = "badge" ∧ kebab "tags" = "tags" ∧ kebab "url" = "url" ∧
    kebab "payload" = "payload" ∧ kebab "condition" = "condition" ∧ kebab "value" = "value" ∧
    kebab "then" = "then" := by
  and_intros <;> rfl

/-- The keys of several words have a capital for each but the first. -/
theorem kebab_keys :
    kebab "fontWeight" = "font-weight" ∧
    kebab "inputType" = "input-type" ∧ kebab "minChars" = "min-chars" ∧
    kebab "maxChars" = "max-chars" ∧ kebab "helperText" = "helper-text" ∧
    kebab "initValue" = "init-value" ∧ kebab "maxLength" = "max-length" ∧
    kebab "dataSource" = "data-source" ∧ kebab "minSelectedItems" = "min-selected-items" ∧
    kebab "maxSelectedItems" = "max-selected-items" ∧
    kebab "onSelectAction" = "on-select-action" ∧ kebab "onClickAction" = "on-click-action" ∧
    kebab "minDate" = "min-date" ∧ kebab "maxDate" = "max-date" ∧
    kebab "unavailableDates" = "unavailable-dates" ∧ kebab "includeDays" = "include-days" ∧
    kebab "minDays" = "min-days" ∧ kebab "maxDays" = "max-days" ∧
    kebab "photoSource" = "photo-source" ∧ kebab "maxFileSizeKb" = "max-file-size-kb" ∧
    kebab "minUploadedPhotos" = "min-uploaded-photos" ∧
    kebab "maxUploadedPhotos" = "max-uploaded-photos" ∧
    kebab "minUploadedDocuments" = "min-uploaded-documents" ∧
    kebab "maxUploadedDocuments" = "max-uploaded-documents" ∧
    kebab "allowedMimeTypes" = "allowed-mime-types" ∧
    kebab "scaleType" = "scale-type" ∧ kebab "aspectRatio" = "aspect-ratio" ∧
    kebab "altText" = "alt-text" ∧ kebab "listItems" = "list-items" ∧
    kebab "mediaSize" = "media-size" ∧ kebab "leftCaption" = "left-caption" ∧
    kebab "centerCaption" = "center-caption" ∧ kebab "rightCaption" = "right-caption" := by
  and_intros <;> rfl

/-! ## Attributes -/

variable {α : Type}

/-- An attribute that is never null is kept. -/
theorem attributeMember_encode (key : String) (c : Codec α) [Codec.Solid c] (a : α) :
    attributeMember key (c.encode a) = [(kebab key, c.encode a)] :=
  if_neg (Codec.Solid.encode_ne_null a)

/-- An attribute that is null when it is unset is kept where it is set, whatever its value. -/
theorem attributeMember_orNull (key : String) (c : Codec α) [Codec.Solid c] (a : Option α) :
    attributeMember key (c.orNull.encode a) = a.toList.map fun b => (kebab key, c.encode b) := by
  cases a with
  | none => rfl
  | some a => exact attributeMember_encode key c a

/-- Rewriting what is set before it is written, or the value that is written, is the same. -/
theorem rewrite_orNull {β : Type} {c : Codec α} {d : Codec β} {rule : Value → Value} {f : α → β}
    (null : rule .null = .null) (a : Option α)
    (each : ∀ b ∈ a, rule (c.encode b) = d.encode (f b)) :
    rule (c.orNull.encode a) = d.orNull.encode (a.map f) := by
  cases a with
  | none => exact null
  | some b => exact each b rfl

theorem mapItems_list {β : Type} {c : Codec α} {d : Codec β} {rule : Value → Value} {f : α → β}
    (as : List α) (each : ∀ a ∈ as, rule (c.encode a) = d.encode (f a)) :
    mapItems rule ((Codec.list c).encode as) = (Codec.list d).encode (as.map f) := by
  show Value.array ((as.map c.encode).map rule) = Value.array ((as.map f).map d.encode)
  rw [List.map_map, List.map_map]
  exact congrArg Value.array (List.map_congr_left each)

/-! ## Actions -/

/-- The target of an action, read off its JSON. -/
theorem textAt_action (a : Design.Action) :
    textAt (Design.Action.fields.write a) "name" = a.name.name ∧
      textAt (Design.Action.fields.write a) "next" = a.next.getD "" := by
  constructor
  · simp [textAt, Design.Action.fields, Entries.get?, ActionName.codec, Codec.choice]
  · cases h : a.next <;>
      simp [textAt, Design.Action.fields, Entries.get?, Codec.orNull, Codec.text, h]

/-- The next screen of an action is that of the rule. -/
theorem nextMember_eq (a : Design.Action) :
    (if a.name.name = "navigate" ∧ a.next.getD "" ≠ "" then
      [("next", Value.object [("type", .string "screen"),
        ("name", (Codec.text.orNull).encode a.next)])]
    else []) = (a.target?.map Flow.NextScreen.screen).toList.map fun n =>
      ("next", (Flow.NextScreen.fields.codec "NextScreen").encode n) := by
  obtain ⟨name, next, url, payload⟩ := a
  cases name with
  | navigate =>
      cases next with
      | none => simp [Design.Action.target?]
      | some id =>
          by_cases blank : id = ""
          · simp [Design.Action.target?, blank]
          · have target : Design.Action.target? ⟨.navigate, some id, url, payload⟩ = some id := by
              show (some id).filter (fun id => !id.isEmpty) = some id
              simp [Option.filter, blank]
            rw [target, if_pos ⟨rfl, blank⟩]
            rfl
  | complete | dataExchange | updateData | openUrl => simp [Design.Action.target?, ActionName.name]

/-- An unset payload of a footer that leaves its screen becomes an empty one. -/
theorem payloadMember_eq (payload : Option (Entries Value)) :
    (if (Codec.entries .value).orNull.encode payload = .null then [("payload", Value.object [])]
      else payload.toList.map fun entries => ("payload", (Codec.entries .value).encode entries)) =
    [("payload", (Codec.entries .value).encode (payload.getD []))] := by
  cases payload with
  | none => rfl
  | some entries => exact if_neg (Codec.Solid.encode_ne_null (c := .entries .value) entries)

/-- An action under the rules, member by member. -/
theorem rewriteAction_eq (inFooter : Bool) (a : Design.Action) :
    rewriteAction inFooter (Design.Action.codec.encode a) =
      .object ((Design.Action.fields.write a).flatMap fun m =>
        actionMember inFooter (Design.Action.fields.write a) m.1 m.2) := rfl

/-- An action outside of footers is mapped by the rules. -/
theorem rewriteAction_encode (a : Design.Action) :
    rewriteAction false (Design.Action.codec.encode a) =
      Flow.Action.codec.encode (mapAction a) := by
  obtain ⟨named, next⟩ := textAt_action a
  show _ = Value.object (Flow.Action.fields.write (mapAction a))
  simp only [rewriteAction_eq, actionMember, named, next]
  simp [Design.Action.fields, Flow.Action.fields, nextMember_eq, mapAction,
    attributeMember_encode, attributeMember_orNull, kebab_words]

/-- Without fields to submit a footer's payload is its own. -/
theorem footerPayload_empty {a : Design.Action}
    (distinct : ∀ p ∈ a.payload, (Entries.keys p).Nodup) :
    footerPayload a Context.empty = a.payload.getD [] := by
  have own : (a.payload.getD []).keys.Nodup := by
    cases h : a.payload with
    | none => exact List.nodup_nil
    | some payload => exact distinct payload h
  have first : Entries.putAllNew [] (a.payload.getD []) = a.payload.getD [] := by
    rw [Entries.putAllNew_eq]
    exact firsts_eq_self Prod.fst own
  unfold footerPayload
  split <;> exact first

/-- An action of a footer is mapped by the rules for footers. -/
theorem rewriteAction_encode_footer {a : Design.Action}
    (distinct : ∀ p ∈ a.payload, (Entries.keys p).Nodup) :
    rewriteAction true (Design.Action.codec.encode a) =
      Flow.Action.codec.encode (mapFooterAction Context.empty a) := by
  obtain ⟨named, next⟩ := textAt_action a
  by_cases leaves : a.name.name = "navigate" ∨ a.name.name = "complete"
  · have mapped : mapFooterAction Context.empty a =
        { mapAction a with payload := some (a.payload.getD []) } := by
      rw [← footerPayload_empty distinct, mapFooterAction]
      cases h : a.name <;> simp [h, ActionName.name] at leaves ⊢
    rw [mapped]
    show _ = Value.object
      (Flow.Action.fields.write { mapAction a with payload := some (a.payload.getD []) })
    simp only [rewriteAction_eq, actionMember, named, next]
    simp [Design.Action.fields, Flow.Action.fields, nextMember_eq, mapAction,
      attributeMember_encode, attributeMember_orNull, kebab_words, leaves, payloadMember_eq]
  · have mapped : mapFooterAction Context.empty a = mapAction a := by
      rw [mapFooterAction]
      cases h : a.name <;> simp [h, ActionName.name] at leaves ⊢
    rw [mapped, ← rewriteAction_encode]
    simp only [rewriteAction_eq, actionMember, named, leaves]
    simp

/-! ## Items of lists -/

theorem rewriteImage_encode (image : Design.CarouselImage) :
    rewriteImage ((Design.CarouselImage.fields.codec "CarouselImage").encode image) =
      (Flow.CarouselImage.fields.codec "CarouselImageWire").encode ⟨image.src, image.altText⟩ := by
  show Value.object ((Design.CarouselImage.fields.write image).flatMap fun m =>
    attributeMember m.1 m.2) = Value.object (Flow.CarouselImage.fields.write _)
  simp [Design.CarouselImage.fields, Flow.CarouselImage.fields,
    attributeMember_encode, kebab_words, kebab_keys]

/-- An action of something else than a footer is mapped where it is set. -/
theorem rewriteAction_orNull (a : Option Design.Action) :
    rewriteAction false (Design.Action.codec.orNull.encode a) =
      Flow.Action.codec.orNull.encode (a.map mapAction) :=
  rewrite_orNull rfl a fun b _ => rewriteAction_encode b

theorem itemContent_write (item : Design.NavigationItem) :
    itemContent (Design.NavigationItem.fields.write item) =
      (Flow.MainContent.fields.codec "MainContentWire").encode
        ⟨item.title, item.description, item.metadata⟩ := by
  show Value.object (((Design.NavigationItem.fields.write item).filter fun m =>
    m.1 ∈ contentKeys).flatMap fun m => attributeMember m.1 m.2) =
      Value.object (Flow.MainContent.fields.write _)
  simp [Design.NavigationItem.fields, Flow.MainContent.fields, contentKeys,
    attributeMember_encode, attributeMember_orNull, kebab_words]

theorem rewriteItem_encode (item : Design.NavigationItem) :
    rewriteItem ((Design.NavigationItem.fields.codec "NavigationItem").encode item) =
      (Flow.NavigationItem.fields.codec "NavigationItemWire").encode (mapNavigationItem item) := by
  show Value.object ((Design.NavigationItem.fields.write item).flatMap fun m =>
    itemMember (Design.NavigationItem.fields.write item) m.1 m.2) =
      Value.object (Flow.NavigationItem.fields.write (mapNavigationItem item))
  simp only [itemMember, itemContent_write]
  simp [Design.NavigationItem.fields, Flow.NavigationItem.fields, contentKeys,
    mapNavigationItem, rewriteAction_orNull, attributeMember_encode, attributeMember_orNull,
    kebab_words, kebab_keys]

end ScreenFlow.Rewriting
