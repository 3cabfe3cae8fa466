import ScreenFlow.Codec.Basic

/-!
# Records

A record is written as an object with its fields in order. It is read from the members of an object
in any order, or from an array of its fields. Of several faults the one that stands first counts;
fields that are missing are noticed last, in the order of the record.

`Fields σ ρ α` holds both directions for some of the fields of a record: how they are written from a
`ρ`, and how an `α` is read from them. Fields are put one after the other with `<*>`, so a record
lists each key once.
-/

namespace ScreenFlow.Codec

open ScreenFlow.Json

/-- What a record is read from. -/
inductive Source (σ : Type) where
  | members (ms : List (String × σ))
  | items (xs : List σ)

/-- Reads another form of every part of a source. -/
def Source.map {σ τ : Type} (f : σ → τ) : Source σ → Source τ
  | .members ms => .members (ms.map fun m => (m.1, f m.2))
  | .items xs => .items (xs.map f)

/-- A record that is being read. -/
structure Reading (σ : Type) where
  origin : Origin
  source : Source σ
  /-- The name of the record. -/
  record : String
  /-- The number of its fields. -/
  count : Nat

/-- A value, or a fault with the place at which it is noticed. -/
abbrev Placed (α : Type) := Except (Nat × Fault) α

/-- Puts two readings together; of two faults the earlier one counts. -/
def Placed.pair {α β γ : Type} (f : α → β → γ) : Placed α → Placed β → Placed γ
  | .ok a, .ok b => .ok (f a b)
  | .ok _, .error e => .error e
  | .error e, .ok _ => .error e
  | .error e, .error e' => if e'.1 < e.1 then .error e' else .error e

/-- Some fields of a record, in order. -/
structure Fields (σ ρ α : Type) where
  names : List String
  write : ρ → List (String × Value)
  /-- Reads the fields, of which the first has the given index in the record. -/
  read : Reading σ → Nat → Placed α

namespace Fields

variable {σ τ ρ α β : Type}

instance : Functor (Fields σ ρ) where
  map f fs := ⟨fs.names, fs.write, fun r i => (fs.read r i).map f⟩

instance : Seq (Fields σ ρ) where
  seq fs gs :=
    let gs := gs ()
    ⟨fs.names ++ gs.names, fun r => fs.write r ++ gs.write r,
      fun r i => Placed.pair (fun f a => f a) (fs.read r i) (gs.read r (i + fs.names.length))⟩

/-- Reads the parts of a source in another form. -/
def comap (f : σ → τ) (fs : Fields τ ρ α) : Fields σ ρ α :=
  ⟨fs.names, fs.write, fun r i => fs.read { r with source := r.source.map f } i⟩

/-! ## One field -/

/-- The place and value of the first member with a key. -/
def locate (name : String) : List (String × σ) → Option (Nat × σ)
  | [] => none
  | (key, s) :: ms =>
    if key = name then some (0, s) else (locate name ms).map fun found => (found.1 + 1, found.2)

/--
One field: how it is written, if at all; what it is when an object has no such key and when an array
ends before it, unless that is a fault; and how it is read.
-/
def single (name : String) (write : ρ → Option Value) (whenMissing whenShort : Option α)
    (decode : Origin → σ → Except Fault α) : Fields σ ρ α where
  names := [name]
  write r := match write r with
    | some v => [(name, v)]
    | none => []
  read r i := match r.source with
    | .members ms =>
      match locate name ms with
      | some (place, s) => (decode r.origin s).mapError fun fault => (place, fault)
      | none =>
        match whenMissing with
        | some a => .ok a
        | none => .error (ms.length + i, .missingField name)
    | .items xs =>
      match xs[i]? with
      | some s => (decode r.origin s).mapError fun fault => (i, fault)
      | none =>
        match whenShort with
        | some a => .ok a
        | none => .error (i, .wrongLength i (.fields r.record r.count))

/-- A field that has to be there. -/
def required (name : String) (c : Codec α) (get : ρ → α) : Fields Tree ρ α :=
  single name (fun r => some (c.encode (get r))) none none c.decode

/-- A field that is always written and has a default when it is not there. -/
def defaulted (name : String) (default : α) (c : Codec α) (get : ρ → α) : Fields Tree ρ α :=
  single name (fun r => some (c.encode (get r))) (some default) (some default) c.decode

/-- A field that is written as null when it is unset; in an array it has to be there. -/
def nullable (name : String) (c : Codec α) (get : ρ → Option α) : Fields Tree ρ (Option α) :=
  single name (fun r => some (c.orNull.encode (get r))) (some none) none c.orNull.decode

/-- A field that is left out when it is unset. -/
def optional (name : String) (c : Codec α) (get : ρ → Option α) : Fields Tree ρ (Option α) :=
  single name (fun r => (get r).map c.encode) (some none) (some none) c.orNull.decode

/-! ## Whole records -/

/-- The place and name of the first known key that has come before. -/
def firstRepeat (names seen : List String) : List (String × σ) → Option (Nat × String)
  | [] => none
  | (key, _) :: ms =>
    if key ∈ names ∧ key ∈ seen then some (0, key)
    else (firstRepeat names (key :: seen) ms).map fun found => (found.1 + 1, found.2)

/-- The fault of an array with more items than the record has fields. -/
def tooLong (origin : Origin) (length count : Nat) : Fault :=
  match origin with
  | .text => .malformed
  | .held => .wrongLength length (.items count)

/-- Reads all fields of a record. -/
def readAll (fs : Fields σ ρ α) (record : String) (origin : Origin) (source : Source σ) :
    Except Fault α :=
  let outcome := fs.read ⟨origin, source, record, fs.names.length⟩ 0
  match source with
  | .members ms =>
    match firstRepeat fs.names [] ms, outcome with
    | none, .ok a => .ok a
    | none, .error (_, fault) => .error fault
    | some (_, name), .ok _ => .error (.duplicateField name)
    | some (place, name), .error (earlier, fault) =>
      if earlier < place then .error fault else .error (.duplicateField name)
  | .items xs =>
    match outcome with
    | .ok a => if xs.length ≤ fs.names.length then .ok a
      else .error (tooLong origin xs.length fs.names.length)
    | .error (_, fault) => .error fault

/-- Reads a record from a tree. -/
def decode (fs : Fields Tree ρ α) (record : String) (origin : Origin) : Tree → Except Fault α
  | .object ms => fs.readAll record origin (.members ms)
  | .array xs => fs.readAll record origin (.items xs)
  | t => .error (mismatch t (.record record))

/-- The codec of a record that has exactly the given fields. -/
def codec (fs : Fields Tree α α) (record : String) : Codec α where
  encode a := .object (fs.write a)
  decode := fs.decode record

end Fields

end ScreenFlow.Codec
