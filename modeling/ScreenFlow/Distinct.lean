/-!
# First occurrences

Names, targets and screen ids are listed in the order in which they come first, each once; all else
is a repeat.
-/

namespace ScreenFlow

variable {α : Type}

/-- The elements whose key is neither among the seen ones nor the key of an earlier element. -/
def firstsFrom (key : α → String) (seen : List String) : List α → List α
  | [] => []
  | a :: as =>
    if key a ∈ seen then firstsFrom key seen as
    else a :: firstsFrom key (key a :: seen) as

/-- The first element of every key, in order. -/
def firsts (key : α → String) (as : List α) : List α := firstsFrom key [] as

/-- The elements whose key is among the seen ones or the key of an earlier element. -/
def repeatsFrom (key : α → String) (seen : List String) : List α → List α
  | [] => []
  | a :: as =>
    if key a ∈ seen then a :: repeatsFrom key seen as
    else repeatsFrom key (key a :: seen) as

/-- The elements whose key an earlier element has, in order. -/
def repeats (key : α → String) (as : List α) : List α := repeatsFrom key [] as

end ScreenFlow
