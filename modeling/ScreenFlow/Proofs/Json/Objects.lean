import ScreenFlow.Proofs.Json.Embedding

/-!
# Objects member by member

The text of an object is made of the texts of its keys and values, with marks around and between
them. It is read as the object of what those texts say alone, in the same order, however keys are
spelled and wherever blanks stand. Only what is nested too deep is cut off.
-/

namespace ScreenFlow.Json

/-- A member of an object: how its key and value are spelled, and what the two texts say. -/
structure Member where
  keyText : String
  valueText : String
  key : String
  value : Tree
  reads_key : tokens? keyText.toList = some [.string key]
  reads_value : Tree.parse? valueText = some value

namespace Member

/-- The text of a member. -/
def text (m : Member) : String := m.keyText ++ ":" ++ m.valueText

/-- What a member says inside an object that nothing is around. -/
def inObject (m : Member) : String × Tree := (m.key, m.value.cut (maxDepth - 1))

/-- Behind its key, a member is read into the object that is open. -/
theorem exists_tokens (m : Member) : ∃ ts, tokens? m.text.toList = some (.string m.key :: ts) ∧
    ∀ read, ts.foldl Builder.step (.growing [.object read true m.key] .colon) =
      .growing [.object (m.inObject :: read) true m.key] .separator := by
  obtain ⟨ts, scanned, built⟩ := Option.bind_eq_some_iff.mp m.reads_value
  rw [Tree.ofTokens?_eq_some_iff] at built
  refine ⟨.colon :: ts, ?_, fun read => ?_⟩
  · rw [text, String.toList_append, String.toList_append, List.append_assoc]
    exact tokens?_append m.reads_key (tokens?_cons rfl scanned) (delimited_cons rfl)
  · exact Builder.foldl_step_inside [.object read true m.key] built

end Member

/-- The text of an object with the given members. -/
def objectText (ms : List Member) : String :=
  "\x7b" ++ ",".intercalate (ms.map Member.text) ++ "\x7d"

/-- The members that are left are read behind those that have been read. -/
theorem exists_tokens_members (m : Member) (ms : List Member) :
    ∃ ts, tokens? ((",".intercalate ((m :: ms).map Member.text)).toList ++ ['\x7d']) =
        some (.string m.key :: ts) ∧
      ∀ read, ts.foldl Builder.step (.growing [.object read true m.key] .colon) =
        .complete (.object (read.reverse ++ (m :: ms).map Member.inObject)) := by
  obtain ⟨ts, scanned, built⟩ := m.exists_tokens
  induction ms generalizing m ts with
  | nil =>
      refine ⟨ts ++ [.closeObject], ?_, fun read => ?_⟩
      · exact tokens?_append scanned (by decide) (delimited_cons rfl)
      · rw [List.foldl_append, built read]
        show Builder.complete (.object (m.inObject :: read).reverse) = _
        rw [List.reverse_cons]
        rfl
  | cons next ms ih =>
      obtain ⟨us, scannedNext, builtNext⟩ := next.exists_tokens
      obtain ⟨vs, scannedRest, builtRest⟩ := ih next us scannedNext builtNext
      refine ⟨ts ++ .comma :: .string next.key :: vs, ?_, fun read => ?_⟩
      · rw [List.map_cons, List.map_cons, String.intercalate_cons_cons, String.toList_append,
          String.toList_append, List.append_assoc, List.append_assoc]
        exact tokens?_append scanned (tokens?_cons rfl scannedRest) (delimited_cons rfl)
      · rw [List.foldl_append, built read]
        show vs.foldl Builder.step
          (.growing [.object (m.inObject :: read) true next.key] .colon) = _
        rw [builtRest, List.reverse_cons, List.append_assoc]
        rfl

/-- The text of an object is read as the object of its members. -/
theorem parse?_objectText (ms : List Member) :
    Tree.parse? (objectText ms) = some (.object (ms.map Member.inObject)) := by
  cases ms with
  | nil => rfl
  | cons m ms =>
      obtain ⟨ts, scanned, built⟩ := exists_tokens_members m ms
      have whole : tokens? (objectText (m :: ms)).toList =
          some (.openObject :: .string m.key :: ts) := by
        rw [objectText, String.toList_append, String.toList_append, List.append_assoc]
        exact tokens?_cons rfl scanned
      rw [Tree.parse?, whole, Option.bind_some, Tree.ofTokens?_eq_some_iff]
      exact built []

end ScreenFlow.Json
