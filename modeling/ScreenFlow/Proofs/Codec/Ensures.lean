import ScreenFlow.Proofs.Codec.Unions
import ScreenFlow.Proofs.Json.Integers

/-!
# What reading ensures

A codec ensures a condition if all that it reads from trees whose integers fit meets it. What fields
ensure is said backwards, so that it can be put together: a condition on what they read comes down
to the same condition for all parts that meet what is ensured of them. Elements of a tagged union
are read by one recursion, so what all variants keep holds of everything in the tree.
-/

namespace ScreenFlow

open ScreenFlow.Json ScreenFlow.Codec

namespace Codec

variable {α : Type}

/-- What is read from a tree whose integers fit meets a condition. -/
class Ensures (c : Codec α) (P : outParam (α → Prop)) : Prop where
  of_decode : ∀ {origin t a}, Tree.Fits t → c.decode origin t = .ok a → P a

/-- Of most forms nothing has to be known. -/
instance (priority := low) (c : Codec α) : Ensures c fun _ => True := ⟨fun _ _ => trivial⟩

instance : Ensures value fun v => v.All Value.IsProper where
  of_decode fits read := Tree.proper_of_toValue? fits (decode_value_eq_ok_iff.mp read)

instance (c : Codec α) (P : α → Prop) [Ensures c P] : Ensures (list c) fun as => ∀ a ∈ as, P a where
  of_decode {origin t as} fits read := by
    cases t with
    | array ts =>
        intro a member
        have items := decodeItems_eq_ok_iff.mp read
        obtain ⟨t, among, itemRead⟩ := exists_left_of_forall₂ items a member
        exact Ensures.of_decode (Tree.fits_array.mp fits t among) itemRead
    | null | bool | number | string | object | illegible => cases read

instance (c : Codec α) (P : α → Prop) [Ensures c P] :
    Ensures (entries c) fun es => (Entries.keys es).Nodup ∧ ∀ e ∈ es, P e.2 where
  of_decode {origin t es} fits read := by
    cases t with
    | object ms =>
        obtain ⟨fs, members, rfl⟩ := map_eq_ok_iff.mp read
        rw [decodeMembers_eq_ok_iff] at members
        refine ⟨Entries.nodup_keys_ofMembers fs, ?_⟩
        intro e member
        obtain ⟨m, among, -, valueRead⟩ := exists_left_of_forall₂ members e
          (Entries.mem_of_mem_ofMembers member)
        exact Ensures.of_decode (Tree.fits_object.mp fits m among) valueRead
    | null | bool | number | string | array | illegible => cases read

instance (c : Codec α) (P : α → Prop) [Ensures c P] : Ensures c.orNull fun o => ∀ a ∈ o, P a where
  of_decode {origin t o} fits read := by
    cases t with
    | null =>
        cases read
        intro a member
        cases member
    | bool | number | string | array | object | illegible =>
        obtain ⟨a, inner, rfl⟩ := map_eq_ok_iff.mp read
        intro b member
        cases member
        exact Ensures.of_decode fits inner

end Codec

/-! ## Fields -/

namespace Codec

variable {σ τ ρ α β : Type}

/-- All parts of a source meet a condition. -/
def Source.All (S : σ → Prop) : Source σ → Prop
  | .members ms => ∀ m ∈ ms, S m.2
  | .items xs => ∀ x ∈ xs, S x

theorem Source.All.imp {S T : σ → Prop} (weaker : ∀ s, S s → T s) {source : Source σ}
    (all : source.All S) : source.All T := by
  cases source with
  | members ms => exact fun m member => weaker m.2 (all m member)
  | items xs => exact fun x member => weaker x (all x member)

theorem Source.All.map {S : σ → Prop} {T : τ → Prop} {f : σ → τ} (step : ∀ s, S s → T (f s))
    {source : Source σ} (all : source.All S) : (source.map f).All T := by
  cases source with
  | members ms => exact List.forall_mem_map.mpr fun m member => step m.2 (all m member)
  | items xs => exact List.forall_mem_map.mpr fun x member => step x (all x member)

namespace Fields

/-- What is read from parts that meet a condition `S` meets every condition `Q` for which `leaves Q`
holds. -/
class Ensures (S : σ → Prop) (fs : Fields σ ρ α) (leaves : outParam ((α → Prop) → Prop)) :
    Prop where
  of_read : ∀ {Q : α → Prop}, leaves Q → ∀ {r : Reading σ} {i : Nat} {a : α},
    r.source.All S → fs.read r i = .ok a → Q a

instance (priority := low) (S : σ → Prop) (fs : Fields σ ρ α) : Ensures S fs fun Q => ∀ a, Q a where
  of_read left _ _ a _ _ := left a

instance (S : σ → Prop) (f : α → β) (fs : Fields σ ρ α) (leaves : (α → Prop) → Prop)
    [Ensures S fs leaves] : Ensures S (f <$> fs) fun Q => leaves fun a => Q (f a) where
  of_read {Q} left r i b all read := by
    obtain ⟨a, inner, rfl⟩ := Codec.map_eq_ok_iff.mp read
    exact Ensures.of_read (Q := fun a => Q (f a)) left all inner

instance (S : σ → Prop) (fs : Fields σ ρ (α → β)) (gs : Fields σ ρ α)
    (first : ((α → β) → Prop) → Prop) (second : (α → Prop) → Prop) [Ensures S fs first]
    [Ensures S gs second] :
    Ensures S (fs <*> gs) fun Q => first fun f => second fun a => Q (f a) where
  of_read {Q} left r i b all read := by
    -- Backwards: the condition on the result is one on the last field, under all before it.
    obtain ⟨f, a, firstRead, secondRead, rfl⟩ := pair_eq_ok_iff.mp read
    have next := Ensures.of_read (Q := fun f => second fun a => Q (f a)) left all firstRead
    exact Ensures.of_read (Q := fun a => Q (f a)) next all secondRead

theorem mem_of_locate {name : String} {ms : List (String × σ)} {place : Nat} {s : σ}
    (found : locate name ms = some (place, s)) : (name, s) ∈ ms := by
  induction ms generalizing place with
  | nil => cases found
  | cons m ms ih =>
      obtain ⟨key, t⟩ := m
      rw [locate] at found
      split at found
      · rename_i same
        cases found
        exact same ▸ List.mem_cons_self
      · obtain ⟨⟨_, _⟩, later, here⟩ := Option.map_eq_some_iff.mp found
        cases here
        exact List.mem_cons_of_mem _ (ih later)

/-- A single field ensures what its defaults meet and its reader ensures. -/
theorem of_read_single {S : σ → Prop} {P : α → Prop} {name : String} {write : ρ → Option Value}
    {whenMissing whenShort : Option α} {decode : Origin → σ → Except Fault α}
    (decodes : ∀ {origin s a}, S s → decode origin s = .ok a → P a)
    (missing : ∀ a ∈ whenMissing, P a) (short : ∀ a ∈ whenShort, P a) {r : Reading σ} {i : Nat}
    {a : α} (all : r.source.All S)
    (read : (single name write whenMissing whenShort decode).read r i = .ok a) : P a := by
  obtain ⟨origin, source, record, count⟩ := r
  cases source with
  | members ms =>
      simp only [single] at read
      split at read
      · rename_i found
        exact decodes (all _ (mem_of_locate found)) (Codec.mapError_eq_ok_iff.mp read)
      · split at read
        · cases read
          exact missing a rfl
        · cases read
  | items xs =>
      simp only [single] at read
      split at read
      · rename_i found
        exact decodes (all _ (List.mem_of_getElem? found)) (Codec.mapError_eq_ok_iff.mp read)
      · split at read
        · cases read
          exact short a rfl
        · cases read

instance (name : String) (c : Codec α) (get : ρ → α) (P : α → Prop) [Codec.Ensures c P] :
    Ensures Tree.Fits (required name c get) fun Q => ∀ a, P a → Q a where
  of_read {Q} left _ _ a all read := by
    refine left a (of_read_single Codec.Ensures.of_decode ?_ ?_ all read)
    · intro b member
      cases member
    · intro b member
      cases member

instance (name : String) (default : α) (c : Codec α) (get : ρ → α) (P : α → Prop)
    [Codec.Ensures c P] :
    Ensures Tree.Fits (defaulted name default c get) fun Q => ∀ a, a = default ∨ P a → Q a where
  of_read {Q} left _ _ a all read := by
    have isDefault : ∀ b ∈ some default, b = default ∨ P b :=
      fun b member => .inl (Option.some.inj member).symm
    exact left a (of_read_single (fun fits read => .inr (Codec.Ensures.of_decode fits read))
      isDefault isDefault all read)

instance (name : String) (c : Codec α) (get : ρ → Option α) (P : α → Prop) [Codec.Ensures c P] :
    Ensures Tree.Fits (nullable name c get) fun Q => ∀ o, (∀ a ∈ o, P a) → Q o where
  of_read {Q} left _ _ o all read := by
    refine left o (of_read_single (P := fun o : Option α => ∀ a ∈ o, P a)
      (Codec.Ensures.of_decode (c := c.orNull)) ?_ ?_ all read)
    · intro o member a inside
      cases member
      cases inside
    · intro o member
      cases member

/-- A condition that follows from what all parts ensure says what the record ensures. -/
theorem Ensures.weaken {S : σ → Prop} {fs : Fields σ ρ α} {leaves : (α → Prop) → Prop}
    [Ensures S fs leaves] {P : α → Prop} (left : leaves P) :
    Ensures S fs fun Q => ∀ a, P a → Q a where
  of_read rest _ _ a all read := rest a (of_read left all read)

/-- What all parts of a record ensure holds of a record that is read. -/
theorem Ensures.of_readAll {S : σ → Prop} {fs : Fields σ ρ α} {leaves : (α → Prop) → Prop}
    [Ensures S fs leaves] {Q : α → Prop} (left : leaves Q) {record : String} {origin : Origin}
    {source : Source σ} {a : α} (all : source.All S)
    (read : fs.readAll record origin source = .ok a) : Q a :=
  of_read left all (read_of_readAll read)

/-- What all parts of a record ensure holds of what its codec reads. -/
theorem Ensures.of_codec {fs : Fields Tree α α} {leaves : (α → Prop) → Prop}
    [Ensures Tree.Fits fs leaves] {Q : α → Prop} (left : leaves Q) (record : String) :
    Codec.Ensures (fs.codec record) Q where
  of_decode {origin t a} fits read := by
    cases t with
    | object ms =>
        have all : (Source.members ms).All Tree.Fits := Tree.fits_object.mp fits
        exact of_readAll left all read
    | array ts =>
        have all : (Source.items ts).All Tree.Fits := Tree.fits_array.mp fits
        exact of_readAll left all read
    | null | bool | number | string | illegible => cases read

end Fields

/-! ## Tagged unions -/

/-- A part whose integers fit and all of whose elements meet a condition. -/
structure Slot.Meets (Q : α → Prop) (s : Slot α) : Prop where
  fits : s.tree.Fits
  branch : ∀ {as}, s.branch () = .ok as → ∀ a ∈ as, Q a
  cases : ∀ {cs}, s.cases () = .ok cs → (Entries.keys cs).Nodup ∧ ∀ c ∈ cs, ∀ a ∈ c.2, Q a

instance (Q : α → Prop) (fs : Fields Tree ρ β) (leaves : (β → Prop) → Prop)
    [Fields.Ensures Tree.Fits fs leaves] :
    Fields.Ensures (Slot.Meets Q) (fs.comap Slot.tree) leaves where
  of_read left r i a all read := by
    have trees : (r.source.map Slot.tree).All Tree.Fits := all.map fun _ meets => meets.fits
    have inner : fs.read { r with source := r.source.map Slot.tree } i = .ok a := read
    exact Fields.Ensures.of_read left trees inner

instance (Q : α → Prop) (name : String) (get : ρ → Value) :
    Fields.Ensures (Slot.Meets Q) (Fields.defaultedBranch name get)
      fun R => ∀ as, (∀ a ∈ as, Q a) → R as where
  of_read {R} left _ _ as all read := by
    have empty : ∀ as ∈ some ([] : List α), ∀ a ∈ as, Q a := by
      intro as member a inside
      cases member
      cases inside
    exact left as (Fields.of_read_single (P := fun as => ∀ a ∈ as, Q a)
      (fun meets read => Slot.Meets.branch meets read) empty empty all read)

instance (Q : α → Prop) (name : String) (get : ρ → Value) :
    Fields.Ensures (Slot.Meets Q) (Fields.defaultedCases name get)
      fun R => ∀ cs, (Entries.keys cs).Nodup → (∀ c ∈ cs, ∀ a ∈ c.2, Q a) → R cs where
  of_read {R} left _ _ cs all read := by
    have empty : ∀ cs ∈ some ([] : Entries (List α)),
        (Entries.keys cs).Nodup ∧ ∀ c ∈ cs, ∀ a ∈ c.2, Q a := by
      intro cs member
      cases member
      exact ⟨List.nodup_nil, fun c inside => absurd inside List.not_mem_nil⟩
    obtain ⟨distinct, each⟩ := Fields.of_read_single
      (P := fun cs : Entries (List α) => (Entries.keys cs).Nodup ∧ ∀ c ∈ cs, ∀ a ∈ c.2, Q a)
      (fun meets read => Slot.Meets.cases meets read) empty empty all read
    exact left cs distinct each

/-- From parts whose elements meet a condition only elements that meet it are read. -/
def Variant.Keeps (Q : α → Prop) (v : Variant α) : Prop :=
  ∀ ⦃source a⦄, Source.All (Slot.Meets Q) source → v.read source = .ok a → Q a

theorem Variant.keeps_ofRecord {Q : α → Prop} (tag record : String) {fs : Fields Tree β β}
    {make : β → α} {leaves : (β → Prop) → Prop} [Fields.Ensures Tree.Fits fs leaves]
    (left : leaves fun b => Q (make b)) : (Variant.ofRecord tag record fs make).Keeps Q := by
  intro source a all read
  obtain ⟨b, inner, rfl⟩ := Codec.map_eq_ok_iff.mp read
  exact Fields.Ensures.of_readAll (Q := fun b => Q (make b)) left
    (all.map fun _ meets => Slot.Meets.fits meets) inner

theorem Variant.keeps_ofParts {Q : α → Prop} (tag record : String) {fs : Fields (Slot α) ρ β}
    {make : β → α} {leaves : (β → Prop) → Prop} [Fields.Ensures (Slot.Meets Q) fs leaves]
    (left : leaves fun b => Q (make b)) : (Variant.ofParts tag record fs make).Keeps Q := by
  intro source a all read
  obtain ⟨b, inner, rfl⟩ := Codec.map_eq_ok_iff.mp read
  exact Fields.Ensures.of_readAll (Q := fun b => Q (make b)) left all inner

namespace TaggedUnion

theorem mem_of_variant? {u : TaggedUnion α} {origin : Origin} {t : Tree} {v : Variant α}
    (known : u.variant? origin t = .ok v) : v ∈ u.variants := by
  unfold variant? at known
  split at known
  · split at known
    · rename_i found
      cases known
      exact List.mem_of_find?_eq_some found
    · cases known
  · split at known
    · split at known
      · rename_i found
        cases known
        exact List.mem_of_getElem? found
      · cases known
    · cases known
  · cases known

theorem itemSlots_eq (u : TaggedUnion α) (ts : List Tree) : u.itemSlots ts = ts.map u.slot := by
  induction ts with
  | nil => rfl
  | cons t ts ih => rw [itemSlots, ih, List.map_cons]; rfl

/-- A branch is read from an array, each of its elements from an item. -/
theorem exists_of_decodeBranch {u : TaggedUnion α} {t : Tree} {as : List α}
    (read : u.decodeBranch t = .ok as) :
    ∃ ts, t = .array ts ∧ ∀ a ∈ as, ∃ part ∈ ts, u.decode .held part = .ok a := by
  cases t with
  | array ts =>
      rw [decodeBranch, decodeList_eq, Codec.decodeItems_eq_ok_iff] at read
      exact ⟨ts, rfl, exists_left_of_forall₂ read⟩
  | null | bool | number | string | object | illegible => cases read

/-- Cases are read from an object, each of them from a member, and have distinct names. -/
theorem exists_of_decodeCases {u : TaggedUnion α} {t : Tree} {cs : Entries (List α)}
    (read : u.decodeCases t = .ok cs) :
    ∃ ms, t = .object ms ∧ (Entries.keys cs).Nodup ∧
      ∀ c ∈ cs, ∃ m ∈ ms, u.decodeBranch m.2 = .ok c.2 := by
  cases t with
  | object ms =>
      obtain ⟨bs, branches, rfl⟩ := Codec.map_eq_ok_iff.mp read
      rw [decodeNamedBranches_eq, Codec.decodeMembers_eq_ok_iff] at branches
      refine ⟨ms, rfl, Entries.nodup_keys_ofMembers bs, ?_⟩
      intro c member
      obtain ⟨m, among, -, branchRead⟩ := exists_left_of_forall₂ branches c
        (Entries.mem_of_mem_ofMembers member)
      exact ⟨m, among, branchRead⟩
  | null | bool | number | string | array | illegible => cases read

theorem exists_of_readMembers {u : TaggedUnion α} {origin : Origin} {slots : List (String × Slot α)}
    {a : α} (read : u.readMembers origin slots = .ok a) :
    slots ≠ [] ∧ ∃ v ∈ u.variants, ∃ fields : List (String × Slot α), fields ⊆ slots ∧
      v.read (.members fields) = .ok a := by
  unfold readMembers at read
  split at read
  · cases read
  · rename_i tags
    obtain ⟨v, known, chosen⟩ := Codec.bind_eq_ok_iff.mp read
    split at chosen
    · refine ⟨?_, v, mem_of_variant? known, _, List.filter_subset_self _, chosen⟩
      rintro rfl
      cases tags
    · cases chosen

theorem exists_of_readItems {u : TaggedUnion α} {origin : Origin} {slots : List (Slot α)} {a : α}
    (read : u.readItems origin slots = .ok a) :
    slots ≠ [] ∧ ∃ v ∈ u.variants, ∃ fields : List (Slot α), fields ⊆ slots ∧
      v.read (.items fields) = .ok a := by
  cases slots with
  | nil => cases read
  | cons tag fields =>
      obtain ⟨v, known, chosen⟩ := Codec.bind_eq_ok_iff.mp read
      exact ⟨List.cons_ne_nil _ _, v, mem_of_variant? known, fields, List.subset_cons_self _ _,
        chosen⟩

/-- An element is read by one of the variants, from parts of its tree. -/
theorem exists_of_decode {u : TaggedUnion α} {origin : Origin} {t : Tree} {a : α}
    (read : u.decode origin t = .ok a) :
    t.parts ≠ [] ∧ ∃ v ∈ u.variants, ∃ source, v.read source = .ok a ∧
      source.All fun s => ∃ part ∈ t.parts, u.slot part = s := by
  cases t with
  | array ts =>
      obtain ⟨nonempty, v, known, fields, sub, chosen⟩ := exists_of_readItems read
      rw [itemSlots_eq] at nonempty sub
      refine ⟨fun none => nonempty (congrArg _ none), v, known, _, chosen, ?_⟩
      intro s member
      exact List.mem_map.mp (sub member)
  | object ms =>
      obtain ⟨nonempty, v, known, fields, sub, chosen⟩ := exists_of_readMembers read
      rw [memberSlots_eq] at nonempty sub
      refine ⟨fun none => nonempty ?_, v, known, _, chosen, ?_⟩
      · rw [List.map_eq_nil_iff.mp none]
        rfl
      · intro m member
        obtain ⟨part, among, rfl⟩ := List.mem_map.mp (sub member)
        exact ⟨part.2, List.mem_map_of_mem among, rfl⟩
  | null | bool | number | string | illegible => cases read

/-- What all variants keep holds of every element that is read, and of all in its branches. -/
theorem meets_of_decode {u : TaggedUnion α} {Q : α → Prop} (keeps : ∀ v ∈ u.variants, v.Keeps Q)
    {t : Tree} (fits : t.Fits) :
    (u.slot t).Meets Q ∧ ∀ {origin a}, u.decode origin t = .ok a → Q a := by
  -- A branch is an array and cases are an object, so a tree must be known as a part and as an
  -- element at once: its parts are read as either.
  induction t using Tree.partsInduction with
  | step t ih =>
      have parts := Tree.fits_of_mem_parts fits
      refine ⟨⟨fits, ?_, ?_⟩, ?_⟩
      · intro as read a member
        obtain ⟨ts, rfl, each⟩ := exists_of_decodeBranch read
        obtain ⟨part, among, itemRead⟩ := each a member
        exact (ih part among (parts part among)).2 itemRead
      · intro cs read
        obtain ⟨ms, rfl, distinct, each⟩ := exists_of_decodeCases read
        refine ⟨distinct, ?_⟩
        intro c member
        obtain ⟨m, among, branchRead⟩ := each c member
        have part := List.mem_map_of_mem (f := Prod.snd) among
        exact (ih m.2 part (parts m.2 part)).1.branch branchRead
      · intro origin a read
        obtain ⟨-, v, known, source, chosen, slots⟩ := exists_of_decode read
        refine keeps v known (slots.imp ?_) chosen
        rintro _ ⟨part, among, rfl⟩
        exact (ih part among (parts part among)).1

end TaggedUnion

end Codec

end ScreenFlow
