import ScreenFlow.Proofs.Flow.Tidy
import ScreenFlow.Proofs.StoredDocuments

/-!
# Canonical texts

A document can be spelled in many ways, and all that are understood lead to one spelling: the text
that is written for what was read. It is nested no deeper than the text that was read, so whatever
could be loaded once can be saved and loaded ever after.
-/

namespace ScreenFlow.Flow.Document

open ScreenFlow.Json

/-- Writing the document of a text gives a proper value with no more levels than the text has. -/
theorem within_of_ofText {text : String} {d : Document} (read : ofText text = .ok d) :
    ∃ t, Tree.parse? text = some t ∧ (codec.encode d).Within t.depth ∧ t.depth ≤ maxDepth := by
  rw [ofText, Codec.ofText] at read
  split at read
  · rename_i t parsed
    have whole : t.Within t.depth := ⟨Tree.fits_of_parse? parsed, Nat.le_refl _⟩
    exact ⟨t, parsed, Codec.Tidy.within_encode whole read, Tree.depth_le_of_parse? parsed⟩
  · cases read

/-! ## Main statement -/

/--
A text that a document is loaded from, however it spells the document, is nested at least as deep as
the texts that are written for it. Both of these are loaded as the same document again, writing it
once more gives the same texts, and it is loaded from every file that it is saved to. Only floats
are assumed to be written so that they read back.
-/
theorem ofText_canonical {text : String} {d : Document} (read : ofText text = .ok d)
    (readable : d.HasReadableFloats) :
    (∃ t, Tree.parse? text = some t ∧ d.depth ≤ t.depth ∧ t.depth ≤ maxDepth) ∧
      (∀ indented, ofText (d.toText indented) = .ok d) ∧
      (∀ indented again, (ofText (d.toText indented)).map (fun loaded => loaded.toText again) =
        .ok (d.toText again)) ∧
      ∀ contents path files, saveDocument (.ofDirectory contents) path d = .ok files →
        loadDocument files path = .ok d := by
  obtain ⟨t, parsed, within, shallow⟩ := within_of_ofText read
  have readsBack : (codec.encode d).All Value.ReadsBack :=
    Value.all_readsBack within.proper readable
  have distinct : (codec.encode d).All Value.HasDistinctKeys :=
    within.proper.imp fun w proper => proper.1
  have fits : (codec.encode d).depth ≤ maxDepth := Nat.le_trans within.depth_le shallow
  have stored : ∀ indented, ofText (d.toText indented) = .ok d :=
    ofText_toText_of_fits distinct readsBack fits
  refine ⟨⟨t, parsed, within.depth_le, shallow⟩, stored, ?_, ?_⟩
  · intro indented again
    rw [stored indented]
    rfl
  · intro contents path files saved
    rw [loadDocument_saveDocument saved, parseDocument, stored true]
    rfl

/-- A document that is spelled as an array of its parts: a key of the routing model stands twice, a
member of a screen is unknown, nodes are arrays behind their tags, an action is named by a key, a
float is an integer, and a key of a payload stands twice. -/
def looseDocument : Value :=
  .array [.string "7.3",
    .object [("END", .array [.string "START"]), ("START", .array []), ("END", .array [])],
    .array [.object [
      ("note", .array [.array [.null]]),
      ("layout", .array [.string "SingleColumnLayout", .array [
        .array [.string "Image", .string "a.png", .null, .null, .null, .number (.integer 1)],
        .object [("label", .string "Go"), ("on-click-action", .array [
          .object [("complete", .null)], .null, .null,
          .object [("a", .number (.integer 1)), ("b", .null), ("a", .array [])]]),
          ("type", .string "Footer")]]]),
      ("terminal", .null), ("title", .string "Start"), ("id", .string "START")]]]

/-- The document that is meant. -/
def meantDocument : Document where
  version := "7.3"
  routingModel := some [("END", []), ("START", [])]
  screens := [⟨"START", "Start", none, none, none, .singleColumn [
    .part (.image ⟨"a.png", none, none, none, some ⟨false, Binary64.one⟩, none, none⟩),
    .part (.footer ⟨"Go", none, none, none, none, some ⟨.complete, none, none,
      some [("a", .array []), ("b", .null)]⟩⟩)]⟩]

/-- The document is read from its loose spelling and from then on from its own. -/
theorem looseDocument_is_tidied : ofText (looseDocument.render false) = .ok meantDocument ∧
    meantDocument.HasReadableFloats ∧
      ∀ indented, ofText (meantDocument.toText indented) = .ok meantDocument := by
  have readsBack : looseDocument.All Value.ReadsBack := by decide +kernel
  have readable : meantDocument.HasReadableFloats := by decide +kernel
  have read : ofText (looseDocument.render false) = .ok meantDocument := by
    -- Reading the characters one by one is left to the general theorem; the rest is evaluated.
    rw [ofText, Codec.ofText, Tree.parse?_render readsBack false]
    apply Codec.eq_ok_of_toOption
    decide +kernel
  obtain ⟨-, stored, -, -⟩ := ofText_canonical read readable
  exact ⟨read, readable, stored⟩

end ScreenFlow.Flow.Document
