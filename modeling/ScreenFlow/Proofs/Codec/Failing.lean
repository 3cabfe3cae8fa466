import ScreenFlow.Proofs.Codec.Records

/-!
# Where a fault comes from

Reading in steps fails where one of the steps does. So the fault of a list is that of an item, and
the fault of a record is that of a field or of its shape.
-/

namespace ScreenFlow.Codec

open ScreenFlow.Json

variable {α β γ ρ σ : Type}

/-! ## Steps -/

/-- A computation in two steps fails where one of them does. -/
theorem bind_eq_error {ε : Type} {x : Except ε β} {f : β → Except ε γ} {e : ε}
    (failed : x >>= f = .error e) : x = .error e ∨ ∃ b, x = .ok b ∧ f b = .error e := by
  cases x with
  | ok b => exact .inr ⟨b, rfl, failed⟩
  | error e' =>
      cases failed
      exact .inl rfl

theorem map_eq_error {ε : Type} {x : Except ε β} {f : β → γ} {e : ε} (failed : x.map f = .error e) :
    x = .error e := by
  cases x with
  | ok b => cases failed
  | error e' =>
      cases failed
      rfl

theorem mapError_eq_error_iff {ε ε' : Type} {x : Except ε β} {f : ε → ε'} {e' : ε'} :
    x.mapError f = .error e' ↔ ∃ e, x = .error e ∧ f e = e' := by
  cases x with
  | ok b =>
      constructor
      · intro impossible
        cases impossible
      · rintro ⟨_, ⟨⟩, _⟩
  | error e =>
      constructor
      · intro failed
        cases failed
        exact ⟨e, rfl, rfl⟩
      · rintro ⟨_, ⟨⟩, rfl⟩
        rfl

/-- A list of items is refused for one of them. -/
theorem exists_of_decodeItems_error {decode : Tree → Except Fault α} {ts : List Tree}
    {fault : Fault} (failed : Codec.decodeItems decode ts = .error fault) :
    ∃ t ∈ ts, decode t = .error fault := by
  induction ts with
  | nil => cases failed
  | cons t ts ih =>
      rcases bind_eq_error failed with here | ⟨a, -, later⟩
      · exact ⟨t, List.mem_cons_self, here⟩
      · rcases bind_eq_error later with there | ⟨as, -, impossible⟩
        · obtain ⟨u, among, refused⟩ := ih there
          exact ⟨u, List.mem_cons_of_mem t among, refused⟩
        · cases impossible

/-- A list of members is refused for the value of one of them. -/
theorem exists_of_decodeMembers_error {decode : Tree → Except Fault α} {ms : List (String × Tree)}
    {fault : Fault} (failed : Codec.decodeMembers decode ms = .error fault) :
    ∃ m ∈ ms, decode m.2 = .error fault := by
  induction ms with
  | nil => cases failed
  | cons m ms ih =>
      rcases bind_eq_error failed with here | ⟨a, -, later⟩
      · exact ⟨m, List.mem_cons_self, here⟩
      · rcases bind_eq_error later with there | ⟨as, -, impossible⟩
        · obtain ⟨n, among, refused⟩ := ih there
          exact ⟨n, List.mem_cons_of_mem m among, refused⟩
        · cases impossible

/-! ## Records -/

/-- The part of a source that a field with a name and an index is read from. -/
def Source.part? (source : Source σ) (name : String) (i : Nat) : Option σ :=
  match source with
  | .members ms => Entries.get? ms name
  | .items xs => xs[i]?

namespace Fields

/-- A pair is refused for one of its parts. -/
theorem pair_eq_error {f : α → β → γ} {p : Placed α} {q : Placed β} {e : Nat × Fault}
    (failed : Placed.pair f p q = .error e) : p = .error e ∨ q = .error e := by
  cases p with
  | ok a =>
      cases q with
      | ok b => cases failed
      | error e' =>
          cases failed
          exact .inr rfl
  | error e' =>
      cases q with
      | ok b =>
          cases failed
          exact .inl rfl
      | error e'' =>
          rw [Placed.pair] at failed
          split at failed
          · cases failed
            exact .inr rfl
          · cases failed
            exact .inl rfl

/-- A field is refused for the part that it is read from, or for want of one. -/
theorem read_single_eq_error {name : String} {write : ρ → Option Value}
    {whenMissing whenShort : Option α} {decode : Origin → σ → Except Fault α} {r : Reading σ}
    {i : Nat} {e : Nat × Fault}
    (failed : (single name write whenMissing whenShort decode).read r i = .error e) :
    (∃ s, r.source.part? name i = some s ∧ decode r.origin s = .error e.2) ∨
      e.2 = .missingField name ∨ e.2 = .wrongLength i (.fields r.record r.count) := by
  obtain ⟨origin, source, record, count⟩ := r
  cases source with
  | members ms =>
      simp only [single] at failed
      split at failed
      · rename_i found
        obtain ⟨fault, refused, rfl⟩ := mapError_eq_error_iff.mp failed
        exact .inl ⟨_, (map_snd_locate name ms).symm.trans (congrArg _ found), refused⟩
      · split at failed
        · cases failed
        · cases failed
          exact .inr (.inl rfl)
  | items xs =>
      simp only [single] at failed
      split at failed
      · rename_i found
        obtain ⟨fault, refused, rfl⟩ := mapError_eq_error_iff.mp failed
        exact .inl ⟨_, found, refused⟩
      · split at failed
        · cases failed
        · cases failed
          exact .inr (.inr rfl)

theorem mem_names_of_firstRepeat {names seen : List String} {ms : List (String × σ)} {place : Nat}
    {name : String} (again : firstRepeat names seen ms = some (place, name)) : name ∈ names := by
  induction ms generalizing seen place with
  | nil => cases again
  | cons m ms ih =>
      rw [firstRepeat] at again
      split at again
      · rename_i known
        cases again
        exact known.1
      · obtain ⟨⟨_, _⟩, later, here⟩ := Option.map_eq_some_iff.mp again
        cases here
        exact ih later

/-- A record is refused for one of its fields, for a name that stands twice or for its length. -/
theorem readAll_eq_error {fs : Fields σ ρ α} {record : String} {origin : Origin}
    {source : Source σ} {fault : Fault} (failed : fs.readAll record origin source = .error fault) :
    (∃ place, fs.read ⟨origin, source, record, fs.names.length⟩ 0 = .error (place, fault)) ∨
      (∃ name ∈ fs.names, fault = .duplicateField name) ∨
      ∃ length, fault = tooLong origin length fs.names.length := by
  cases source with
  | members ms =>
      simp only [readAll] at failed
      split at failed
      · cases failed
      · rename_i outcome
        cases failed
        exact .inl ⟨_, outcome⟩
      · rename_i again _
        cases failed
        exact .inr (.inl ⟨_, mem_names_of_firstRepeat again, rfl⟩)
      · rename_i again outcome
        split at failed
        · cases failed
          exact .inl ⟨_, outcome⟩
        · cases failed
          exact .inr (.inl ⟨_, mem_names_of_firstRepeat again, rfl⟩)
  | items xs =>
      simp only [readAll] at failed
      split at failed
      · split at failed
        · cases failed
        · cases failed
          exact .inr (.inr ⟨_, rfl⟩)
      · rename_i outcome
        cases failed
        exact .inl ⟨_, outcome⟩

end Fields

end ScreenFlow.Codec
