import ScreenFlow.Proofs.Flow.Proper

/-!
# Documents and their texts

Writing a document loses nothing: whatever is nested in it, whichever attributes are set, and in
whichever order its maps are, each of its two texts is read as that document again. The only
condition besides that it is proper is the greatest depth of a text.
-/

namespace ScreenFlow.Flow

open ScreenFlow.Json

/-! ## Deciding what is proper -/

instance (a : Action) : Decidable a.IsProper :=
  inferInstanceAs (Decidable (∀ payload ∈ a.payload, (Value.object payload).All Value.IsProper))

instance : DecidablePred Node.IsProperHere
  | .part p => inferInstanceAs (Decidable (∀ a ∈ p.actions, a.IsProper))
  | .switchBlock _ cases => inferInstanceAs (Decidable (Entries.keys cases).Nodup)
  | .ifBlock _ _ _ | .form _ _ => isTrue trivial

instance (s : Screen) : Decidable s.IsProper :=
  decidable_of_iff ((∀ data ∈ s.data, data.keys.Nodup) ∧
      ∀ n ∈ Node.walkList s.layout.children, n.IsProperHere)
    ⟨fun both => ⟨both.1, both.2⟩, fun proper => ⟨proper.data, proper.nodes⟩⟩

namespace Document

instance (d : Document) : Decidable d.IsProper :=
  decidable_of_iff ((∀ model ∈ d.routingModel, model.keys.Nodup) ∧ ∀ s ∈ d.screens, s.IsProper)
    ⟨fun both => ⟨both.1, both.2⟩, fun proper => ⟨proper.routing, proper.screens⟩⟩

/-! ## Reading what is written -/

/-- The number of arrays and objects around the innermost part of a document's text. -/
def depth (d : Document) : Nat := (codec.encode d).depth

/-- The text of every float in a document reads back. -/
def HasReadableFloats (d : Document) : Prop := (codec.encode d).All Value.HasReadableFloat

instance (d : Document) : Decidable d.HasReadableFloats :=
  inferInstanceAs (Decidable ((codec.encode d).All Value.HasReadableFloat))

/-- A proper document is loaded from its text unless that is too deep; then nothing is loaded. -/
theorem ofText_toText_of_isProper {d : Document} (proper : d.IsProper)
    (readable : d.HasReadableFloats) (indented : Bool) :
    (d.depth ≤ maxDepth → ofText (d.toText indented) = .ok d) ∧
      (maxDepth < d.depth → ∃ fault, ofText (d.toText indented) = .error fault) := by
  have all : (codec.encode d).All Value.IsProper := all_encode proper
  have readsBack : (codec.encode d).All Value.ReadsBack := Value.all_readsBack all readable
  have distinct : (codec.encode d).All Value.HasDistinctKeys := all.imp fun w proper => proper.1
  constructor
  · intro fits
    exact ofText_toText_of_fits distinct readsBack fits indented
  · intro deep
    exact ofText_toText_of_deep readsBack deep indented

/-- A proper document that is nested no deeper than a text may be is read from both of its texts. -/
theorem ofText_toText_of_depth_le {d : Document} (proper : d.IsProper)
    (readable : d.HasReadableFloats) (fits : d.depth ≤ 127) (indented : Bool) :
    ofText (d.toText indented) = .ok d :=
  (ofText_toText_of_isProper proper readable indented).1 fits

/-- A document with most forms that a text can have: a form in which branches are nested, an empty
second branch, options and a reference to them, attributes that are false, zero and empty, and a
payload with numbers of each form, a text with escapes and an object in an order of its own. -/
def surveyDocument : Document where
  version := "7.3"
  routingModel := some [("RATING", ["END", "RATING"]), ("END", [])]
  screens := [
    ⟨"RATING", "", none, some false, some [("z", .string "[\"1\"]"), ("a", .string "")],
      .singleColumn [
        .part (.image ⟨"a.png", some 0, none, some .contain, some ⟨false, Binary64.one⟩, some "",
          some false⟩),
        .form "flow_path" [
          .ifBlock "new" [
            .switchBlock "tier" [
              ("silver", []),
              ("gold", [.part (.selector .dropdown ⟨"stars", "Stars", none,
                .options [⟨"1", "One", none, some "\n\"", some false⟩], none, none, some 5, none,
                none, none⟩)])]] (some []),
          .part (.selector .chipsSelector ⟨"tags", "Tags", none, .reference "$\x7bdata.tags\x7d",
            some false, some 0, none, none, none, none⟩),
          .part (.footer ⟨"Next", none, some "", none, none, some ⟨.dataExchange,
            some (.screen "END"), none, some [
              ("big", .number (.integer 18446744073709551615)),
              ("small", .number (.integer (-9223372036854775808))),
              ("quarter", .number (.float ⟨true, Binary64.one / 4⟩)),
              ("escapes", .string "\\ \t \x7f ü"),
              ("inner", .object [("type", .null), ("a", .array []), ("b", .object [])])]⟩⟩)]]⟩,
    ⟨"END", "End", some true, some true, some [], .singleColumn []⟩]

/-- The document is loaded from its indented and from its compact text. -/
theorem surveyDocument_is_loaded : surveyDocument.IsProper ∧ surveyDocument.HasReadableFloats ∧
    surveyDocument.depth ≤ 127 ∧ ofText (surveyDocument.toText true) = .ok surveyDocument ∧
      ofText (surveyDocument.toText false) = .ok surveyDocument := by
  have proper : surveyDocument.IsProper := by decide +kernel
  have readable : surveyDocument.HasReadableFloats := by decide +kernel
  have fits : surveyDocument.depth ≤ 127 := by decide +kernel
  exact ⟨proper, readable, fits, ofText_toText_of_depth_le proper readable fits true,
    ofText_toText_of_depth_le proper readable fits false⟩

end Document

end ScreenFlow.Flow
