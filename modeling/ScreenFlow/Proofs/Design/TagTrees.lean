import ScreenFlow.Proofs.Design.Elements
import ScreenFlow.Proofs.Design.Tags

/-!
# Elements have the tree of their tags

A value that names a kind and has no key twice is read by the variant of that kind from its other
members. What its steps lead to are the elements in the branches of the element that is read, each
at the same place. So where all values that stand for elements name kinds, the element has at every
place the kind that is named there, and no others.
-/

namespace ScreenFlow.Codec

open ScreenFlow.Json

variable {α β ρ σ : Type}

/-- Members with one tag among them are read by the variant of that tag. -/
theorem TaggedUnion.readMembers_of_tag {u : TaggedUnion α} {origin : Origin}
    {slots : List (String × Slot α)} {tag : String × Slot α}
    (single : slots.filter (fun m => m.1 == tagKey) = [tag]) :
    u.readMembers origin slots = u.variant? origin tag.2.tree >>= fun v =>
      v.read (.members (slots.filter fun m => m.1 != tagKey)) := by
  rw [readMembers, single]
  rfl

end ScreenFlow.Codec

namespace ScreenFlow.Entries

variable {α β : Type}

/-- An entry with a key is the only one under it if keys are distinct. -/
theorem filter_key_of_get? {es : Entries α} {key : String} {a : α} (distinct : es.keys.Nodup)
    (found : es.get? key = some a) : es.filter (fun e => e.1 == key) = [(key, a)] := by
  induction es with
  | nil => cases found
  | cons e es ih =>
      obtain ⟨fresh, others⟩ := List.nodup_cons.mp distinct
      rw [get?, List.find?_cons] at found
      by_cases same : e.1 = key
      · rw [beq_iff_eq.mpr same] at found
        rw [List.filter_cons, if_pos (beq_iff_eq.mpr same), List.filter_eq_nil_iff.mpr]
        · cases found
          rw [← same]
        · intro m member again
          exact fresh (List.mem_map.mpr ⟨m, member, (eq_of_beq again).trans same.symm⟩)
      · rw [beq_false_of_ne same] at found
        rw [List.filter_cons, if_neg (by simpa using same)]
        exact ih others found

/-- Other keys are looked up as if there were no entry under a key. -/
theorem get?_filter_of_ne (es : Entries α) {key other : String} (isOther : other ≠ key) :
    get? (es.filter fun e => e.1 != key) other = es.get? other := by
  rw [get?, get?, List.find?_filter]
  congr 2
  funext e
  by_cases same : e.1 = other
  · simp [same, isOther]
  · simp [same]

end ScreenFlow.Entries

namespace ScreenFlow.Json.Value

open ScreenFlow.Design (Branch Element Kind Step)

/-! ## Parts of a value -/

section

variable {P : Value → Prop} {v : Value}

theorem All.here (all : v.All P) : P v := by
  apply all
  cases v <;> exact List.mem_cons_self

theorem All.of_mem_items (all : v.All P) {w : Value} (inside : w ∈ v.items) : w.All P := by
  cases v with
  | array vs => exact ((all_array vs).mp all).2 w inside
  | null | bool | number | string | object => cases inside

theorem All.of_mem_members (all : v.All P) {m : String × Value} (inside : m ∈ v.members) :
    m.2.All P := by
  cases v with
  | object ms => exact ((all_object ms).mp all).2 m inside
  | null | bool | number | string | array => cases inside

theorem mem_members_of_get? {key : String} {w : Value}
    (found : Entries.get? v.members key = some w) : (key, w) ∈ v.members := by
  obtain ⟨m, among, rfl⟩ := Option.map_eq_some_iff.mp found
  have same := List.find?_some among
  rw [beq_iff_eq] at same
  exact same ▸ List.mem_of_find?_eq_some among

end

theorem all_member {v : Value} (distinct : v.All HasDistinctKeys) (key : String) :
    (v.member key).All HasDistinctKeys := by
  unfold member
  cases found : Entries.get? v.members key with
  | none => exact (all_null).mpr trivial
  | some w => exact distinct.of_mem_members (mem_members_of_get? found)

/-- What steps lead to has no doubled keys where the whole value has none. -/
theorem all_of_mem_steps {v : Value} (distinct : v.All HasDistinctKeys) {c : Step × Value}
    (stepped : c ∈ v.steps) : c.2.All HasDistinctKeys := by
  unfold steps at stepped
  split at stepped
  · rcases List.mem_append.mp stepped with stepped | stepped
    · exact (all_member distinct "then").of_mem_items (mem_of_mem_stepsInto stepped)
    · exact (all_member distinct "else").of_mem_items (mem_of_mem_stepsInto stepped)
  · obtain ⟨m, among, stepped⟩ := List.mem_flatMap.mp stepped
    exact ((all_member distinct "cases").of_mem_members among).of_mem_items
      (mem_of_mem_stepsInto stepped)
  · cases stepped

/-- A value that names a kind has its name as the tag. -/
theorem tag?_of_kind? {v : Value} {k : Kind} (named : v.kind? = some k) : v.tag? = some k.name := by
  obtain ⟨tag, tagged, named⟩ := Option.bind_eq_some_iff.mp named
  have same := List.find?_some named
  rw [tagged, eq_of_beq same]

/-- Behind the steps of a value in which all name a kind, all name a kind. -/
theorem firstUnkinded?_of_mem_steps {v : Value} (kinded : v.firstUnkinded? = none)
    {c : Step × Value} (stepped : c ∈ v.steps) : c.2.firstUnkinded? = none := by
  rw [firstUnkinded?_eq_none_iff] at kinded ⊢
  exact forall_mem_placed_of_mem_steps (P := fun w => ∃ k, w.kind? = some k) kinded stepped

end ScreenFlow.Json.Value

namespace ScreenFlow.Design.Element

open ScreenFlow.Codec ScreenFlow.Codec.Fields ScreenFlow.Json

/-! ## Reading by kind -/

/-- The parts of an object that the variant of its tag reads. -/
def fieldSlots (v : Value) : List (String × Slot Element) :=
  (v.members.filter fun m => m.1 != tagKey).map fun m => (m.1, union.slot m.2.toTree)

theorem memberSlots_memberTrees (ms : List (String × Value)) :
    union.memberSlots (Value.memberTrees ms) = ms.map fun m => (m.1, union.slot m.2.toTree) := by
  rw [TaggedUnion.memberSlots_eq, Value.memberTrees_eq, List.map_map]
  rfl

/-- An object with a tag is read by the variant of that tag from its other members. -/
theorem decode_of_get? {ms : List (String × Value)} (distinct : (Entries.keys ms).Nodup)
    {tag : Value} (found : Entries.get? ms tagKey = some tag) (origin : Origin) :
    union.decode origin (Value.object ms).toTree =
      union.variant? origin tag.toTree >>= fun variant =>
        variant.read (.members (fieldSlots (.object ms))) := by
  have single : ((ms.map fun m => (m.1, union.slot m.2.toTree)).filter
      fun m => m.1 == tagKey) = [(tagKey, union.slot tag.toTree)] := by
    rw [List.filter_map]
    show ((ms.filter fun m => m.1 == tagKey).map _) = _
    rw [Entries.filter_key_of_get? distinct found]
    rfl
  show union.readMembers origin (union.memberSlots (Value.memberTrees ms)) = _
  rw [memberSlots_memberTrees, TaggedUnion.readMembers_of_tag single, List.filter_map]
  rfl

/-- An object without a tag is refused. -/
theorem decode_of_get?_none {ms : List (String × Value)} (none : Entries.get? ms tagKey = none)
    (origin : Origin) :
    union.decode origin (Value.object ms).toTree = .error (.missingField tagKey) := by
  have untagged : (ms.filter fun m => m.1 == tagKey) = [] := by
    rw [Entries.get?, Option.map_eq_none_iff, List.find?_eq_none] at none
    exact List.filter_eq_nil_iff.mpr none
  have slots : ((ms.map fun m => (m.1, union.slot m.2.toTree)).filter
      fun m => m.1 == tagKey) = [] := by
    rw [List.filter_map]
    exact congrArg (List.map _) untagged
  show union.readMembers origin (union.memberSlots (Value.memberTrees ms)) = _
  rw [memberSlots_memberTrees, TaggedUnion.readMembers, slots]

/-- A value that names a kind is read by its variant, wherever its tree comes from. -/
theorem decode_of_kind? {v : Value} {k : Kind} (distinct : v.HasDistinctKeys)
    (named : v.kind? = some k) (origin : Origin) :
    union.decode origin v.toTree = (variant k).read (.members (fieldSlots v)) := by
  have tagged := Value.tag?_of_kind? named
  cases v with
  | object ms =>
      have found : Entries.get? ms tagKey = some (.string k.name) := by
        unfold Value.tag? Value.member Value.members at tagged
        cases tag : Entries.get? ms tagKey with
        | none =>
            rw [tag] at tagged
            cases tagged
        | some w =>
            rw [tag, Option.getD_some] at tagged
            cases w with
            | string s => cases tagged; rfl
            | null | bool | number | array | object => cases tagged
      rw [decode_of_get? distinct found, Value.toTree, variant?_name]
      rfl
  | null | bool | number | string | array => cases tagged

/-- A field is looked up among the parts under its own name. -/
theorem get?_fieldSlots (v : Value) {name : String} (field : name ≠ tagKey) :
    Entries.get? (fieldSlots v) name =
      (Entries.get? v.members name).map fun w => union.slot w.toTree := by
  rw [fieldSlots, Entries.get?_map_values (fun w : Value => union.slot w.toTree),
    Entries.get?_filter_of_ne _ field]

/-- What the variant of a kind reads is of that kind. -/
theorem kind_of_read {k : Kind} {source : Source (Slot Element)} {e : Element}
    (read : (variant k).read source = .ok e) : e.kind = k := by
  cases k <;> (obtain ⟨b, -, rfl⟩ := Codec.map_eq_ok_iff.mp read; rfl)

/-! ## Reading branches -/

/-- Values are read as elements, each in its place. -/
abbrev AreRead (vs : List Value) (es : List Element) : Prop :=
  List.Forall₂ (fun v e => union.decode .held v.toTree = .ok e) vs es

theorem areRead_of_decodeBranch {v : Value} {es : List Element}
    (read : union.decodeBranch v.toTree = .ok es) : AreRead v.items es := by
  cases v with
  | array vs =>
      have items : union.decodeList (Value.itemTrees vs) = .ok es := read
      rw [TaggedUnion.decodeList_eq, Value.itemTrees_eq, Codec.decodeItems_eq_ok_iff,
        List.forall₂_map_left_iff] at items
      exact items
  | null | bool | number | string | object => cases read

theorem areRead_of_decodeCases {v : Value} {cs : Entries (List Element)}
    (distinct : v.HasDistinctKeys) (read : union.decodeCases v.toTree = .ok cs) :
    List.Forall₂ (fun m c => m.1 = c.1 ∧ AreRead m.2.items c.2) v.members cs := by
  cases v with
  | object ms =>
      obtain ⟨bs, branches, rfl⟩ := Codec.map_eq_ok_iff.mp read
      rw [TaggedUnion.decodeNamedBranches_eq, Value.memberTrees_eq, Codec.decodeMembers_eq_ok_iff,
        List.forall₂_map_left_iff] at branches
      have keys : Entries.keys ms = Entries.keys bs := by
        rw [← List.forall₂_eq_eq_eq, Entries.keys, Entries.keys, List.forall₂_map_left_iff,
          List.forall₂_map_right_iff]
        exact branches.imp fun m c read => read.1.symm
      have distinct : (Entries.keys ms).Nodup := distinct
      rw [Entries.ofMembers_eq_self (keys ▸ distinct)]
      exact branches.imp fun m c read => ⟨read.1.symm, areRead_of_decodeBranch read.2⟩
  | null | bool | number | string | array => cases read

/-- The branch of a field is read from the items under its name. -/
theorem areRead_of_defaultedBranch {v : Value} {name : String} (field : name ≠ tagKey) {ρ : Type}
    {get : ρ → Value} {record : String} {count i : Nat} {es : List Element}
    (read : (Fields.defaultedBranch name get).read
      ⟨.held, .members (fieldSlots v), record, count⟩ i = .ok es) :
    AreRead (v.member name).items es := by
  rw [Fields.defaultedBranch, read_single_eq_ok_iff, get?_fieldSlots v field] at read
  unfold Value.member
  cases found : Entries.get? v.members name with
  | none =>
      rw [found] at read
      cases read
      exact .nil
  | some w =>
      rw [found] at read
      exact areRead_of_decodeBranch read

/-- The cases of a field are read from the members under its name. -/
theorem areRead_of_defaultedCases {v : Value} (distinct : v.All Value.HasDistinctKeys)
    {name : String} (field : name ≠ tagKey) {ρ : Type} {get : ρ → Value} {record : String}
    {count i : Nat} {cs : Entries (List Element)}
    (read : (Fields.defaultedCases name get).read
      ⟨.held, .members (fieldSlots v), record, count⟩ i = .ok cs) :
    List.Forall₂ (fun m c => m.1 = c.1 ∧ AreRead m.2.items c.2) (v.member name).members cs := by
  have inner := Value.all_member distinct name
  rw [Fields.defaultedCases, read_single_eq_ok_iff, get?_fieldSlots v field] at read
  unfold Value.member at inner ⊢
  cases found : Entries.get? v.members name with
  | none =>
      rw [found] at read
      cases read
      exact .nil
  | some w =>
      rw [found] at read inner
      exact areRead_of_decodeCases inner.here read

/-- Both branches of an `If` are read from the items under their names. -/
theorem areRead_of_ifFields {v : Value} {record : String} {parts : IfParts (List Element)}
    (read : ifFields.readAll record .held (.members (fieldSlots v)) = .ok parts) :
    AreRead (v.member "then").items parts.thenBranch ∧
      AreRead (v.member "else").items parts.elseBranch := by
  obtain ⟨_, elseBranch, beforeElse, elseRead, rfl⟩ := pair_eq_ok_iff.mp (read_of_readAll read)
  obtain ⟨_, thenBranch, beforeThen, thenRead, rfl⟩ := pair_eq_ok_iff.mp beforeElse
  obtain ⟨condition, -, rfl⟩ := Codec.map_eq_ok_iff.mp beforeThen
  exact ⟨areRead_of_defaultedBranch (by decide) thenRead,
    areRead_of_defaultedBranch (by decide) elseRead⟩

/-- The cases of a `Switch` are read from the members under their name. -/
theorem areRead_of_switchFields {v : Value} (distinct : v.All Value.HasDistinctKeys)
    {record : String} {parts : SwitchParts (Entries (List Element))}
    (read : switchFields.readAll record .held (.members (fieldSlots v)) = .ok parts) :
    List.Forall₂ (fun m c => m.1 = c.1 ∧ AreRead m.2.items c.2)
      (v.member "cases").members parts.cases := by
  obtain ⟨_, cases, beforeCases, casesRead, rfl⟩ := pair_eq_ok_iff.mp (read_of_readAll read)
  obtain ⟨value, -, rfl⟩ := Codec.map_eq_ok_iff.mp beforeCases
  exact areRead_of_defaultedCases distinct (by decide) casesRead

/-! ## Steps and places -/

/-- A step from a value is one from an element, and leads to what is read from where it leads. -/
abbrev IsSameStep (c : Step × Value) (d : Step × Element) : Prop :=
  c.1 = d.1 ∧ union.decode .held c.2.toTree = .ok d.2

theorem forall₂_stepsInto (branch : Branch) {vs : List Value} {es : List Element}
    (read : AreRead vs es) :
    List.Forall₂ IsSameStep (Value.stepsInto branch vs) (stepsInto branch es) := by
  unfold Value.stepsInto stepsInto
  rw [List.forall₂_map_left_iff, List.forall₂_map_right_iff]
  generalize 1 = position
  induction read generalizing position with
  | nil => exact .nil
  | cons first _ ih => exact .cons ⟨rfl, first⟩ (ih (position + 1))

/-- The steps from a value that names a kind are those from the element that is read from it. -/
theorem forall₂_steps {v : Value} {k : Kind} {e : Element} (distinct : v.All Value.HasDistinctKeys)
    (named : v.kind? = some k) (read : (variant k).read (.members (fieldSlots v)) = .ok e) :
    List.Forall₂ IsSameStep v.steps e.steps := by
  unfold Value.steps
  rw [named]
  cases k with
  | ifBlock =>
      obtain ⟨parts, all, rfl⟩ := Codec.map_eq_ok_iff.mp read
      obtain ⟨thenRead, elseRead⟩ := areRead_of_ifFields all
      exact List.rel_append (forall₂_stepsInto .thenBranch thenRead)
        (forall₂_stepsInto .elseBranch elseRead)
  | switchBlock =>
      obtain ⟨parts, all, rfl⟩ := Codec.map_eq_ok_iff.mp read
      refine List.rel_flatMap (areRead_of_switchFields distinct all) ?_
      rintro m c ⟨name, branch⟩
      dsimp only
      rw [name]
      exact forall₂_stepsInto (.caseBranch c.1) branch
  | _ =>
      -- All other kinds hold widgets, which have no branches.
      obtain ⟨attrs, -, rfl⟩ := Codec.map_eq_ok_iff.mp read
      exact .nil

theorem flatMap_congr_of_forall₂ {α β γ : Type} {R : α → β → Prop} {f : α → List γ} {g : β → List γ}
    {as : List α} {bs : List β} (related : List.Forall₂ R as bs)
    (same : ∀ a ∈ as, ∀ b, R a b → f a = g b) : as.flatMap f = bs.flatMap g := by
  induction related with
  | nil => rfl
  | cons first _ ih =>
      obtain ⟨here, others⟩ := List.forall_mem_cons.mp same
      rw [List.flatMap_cons, List.flatMap_cons, here _ first, ih others]

/-- The tags of a value in which all name kinds are the names of the kinds of the element that is
read from it, place by place. -/
theorem map_tag?_placed {v : Value} {e : Element} (distinct : v.All Value.HasDistinctKeys)
    (kinded : v.firstUnkinded? = none) (read : union.decode .held v.toTree = .ok e) :
    v.placed.map (fun p => (p.1, p.2.tag?)) =
      e.placed.map fun p => (p.1, some p.2.kind.name) := by
  induction v using Value.stepInduction generalizing e with
  | step v ih =>
      obtain ⟨k, named⟩ := Value.exists_kind_of_firstUnkinded? kinded
      rw [decode_of_kind? distinct.here named] at read
      have behind : (v.steps.flatMap fun c =>
          (Value.placedAfter c).map fun p => (p.1, p.2.tag?)) =
          e.steps.flatMap fun d => (placedAfter d).map fun p => (p.1, some p.2.kind.name) := by
        refine flatMap_congr_of_forall₂ (forall₂_steps distinct named read) ?_
        rintro c stepped d ⟨step, inner⟩
        have same := ih c stepped (Value.all_of_mem_steps distinct stepped)
          (Value.firstUnkinded?_of_mem_steps kinded stepped) inner
        rw [Value.placedAfter, placedAfter, List.map_map, List.map_map, step]
        have longer := congrArg (List.map fun p => (d.1 :: p.1, p.2)) same
        rw [List.map_map, List.map_map] at longer
        exact longer
      rw [Value.placed_eq, placed_eq, List.map_cons, List.map_cons, List.map_flatMap,
        List.map_flatMap, behind, Value.tag?_of_kind? named, kind_of_read read]

end ScreenFlow.Design.Element
