/-!
# Ordered maps

Every map that reaches a document iterates in the order in which its keys came first, so a map is
the list of its entries. The operations here keep keys distinct, and setting a key changes the value
of that key alone.
-/

namespace ScreenFlow

/-- The entries of a map, in the order of their first insertion. -/
abbrev Entries (α : Type) := List (String × α)

namespace Entries

variable {α : Type}

/-- The keys in order. -/
def keys (es : Entries α) : List String := es.map Prod.fst

/-- The value of the first entry with a key. -/
def get? (es : Entries α) (key : String) : Option α := (es.find? (·.1 == key)).map Prod.snd

/-- Sets the value of a key: an entry that is there keeps its position, a new one goes last. -/
def put : Entries α → String → α → Entries α
  | [], key, a => [(key, a)]
  | (k, b) :: es, key, a => if k = key then (k, a) :: es else (k, b) :: put es key a

/-- The map that a list of members stands for: first position, last value. -/
def ofMembers (members : List (String × α)) : Entries α :=
  members.foldl (fun es m => es.put m.1 m.2) []

/-- Adds an entry unless its key is taken. -/
def putNew (es : Entries α) (key : String) (a : α) : Entries α :=
  if key ∈ es.keys then es else es ++ [(key, a)]

/-- Adds entries one after the other, each unless its key is taken. -/
def putAllNew (es : Entries α) (more : List (String × α)) : Entries α :=
  more.foldl (fun es m => es.putNew m.1 m.2) es

end Entries

end ScreenFlow
