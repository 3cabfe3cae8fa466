import ScreenFlow.Json.Token
import ScreenFlow.Json.Value

/-!
# Writing JSON

The compact form of a value is its lexemes one after the other. The pretty form has the same lexemes
on lines of their own, indented by two blanks for each open array or object.
-/

namespace ScreenFlow.Json.Value

/-! ## Compact form -/

mutual

/-- The lexemes of a value. -/
def tokens : Value → List Token
  | .null => [.null]
  | .bool b => [.bool b]
  | .number n => [.number n]
  | .string s => [.string s]
  | .array [] => [.openArray, .closeArray]
  | .array (v :: vs) => .openArray :: tokens v ++ itemTokens vs ++ [.closeArray]
  | .object [] => [.openObject, .closeObject]
  | .object ((key, v) :: ms) =>
    .openObject :: .string key :: .colon :: tokens v ++ memberTokens ms ++ [.closeObject]
termination_by structural v => v

/-- The lexemes of the items after the first. -/
def itemTokens : List Value → List Token
  | [] => []
  | v :: vs => .comma :: tokens v ++ itemTokens vs
termination_by structural vs => vs

/-- The lexemes of the members after the first. -/
def memberTokens : List (String × Value) → List Token
  | [] => []
  | (key, v) :: ms => .comma :: .string key :: .colon :: tokens v ++ memberTokens ms
termination_by structural ms => ms

end

/-- The compact text of a value. -/
def compact (v : Value) : String := String.ofList (v.tokens.flatMap Token.chars)

/-! ## Pretty form -/

/-- A new line indented to a level. -/
def newLine (level : Nat) : List Char := '\n' :: List.replicate (2 * level) ' '

/-- A key and the colon after it. -/
def keyChars (key : String) : List Char := quotedChars key ++ [':', ' ']

mutual

/-- The text of a value that begins at a level of indentation. -/
def prettyChars (level : Nat) : Value → List Char
  | .null => Token.null.chars
  | .bool b => (Token.bool b).chars
  | .number n => n.chars
  | .string s => quotedChars s
  | .array [] => ['[', ']']
  | .array (v :: vs) =>
    '[' :: newLine (level + 1) ++ prettyChars (level + 1) v ++ prettyItems (level + 1) vs ++
      newLine level ++ [']']
  | .object [] => Token.openObject.chars ++ Token.closeObject.chars
  | .object ((key, v) :: ms) =>
    Token.openObject.chars ++ newLine (level + 1) ++ keyChars key ++ prettyChars (level + 1) v ++
      prettyMembers (level + 1) ms ++ newLine level ++ Token.closeObject.chars
termination_by structural v => v

/-- The text of the items after the first. -/
def prettyItems (level : Nat) : List Value → List Char
  | [] => []
  | v :: vs => ',' :: newLine level ++ prettyChars level v ++ prettyItems level vs
termination_by structural vs => vs

/-- The text of the members after the first. -/
def prettyMembers (level : Nat) : List (String × Value) → List Char
  | [] => []
  | (key, v) :: ms =>
    ',' :: newLine level ++ keyChars key ++ prettyChars level v ++ prettyMembers level ms
termination_by structural ms => ms

end

/-- The pretty text of a value. -/
def pretty (v : Value) : String := String.ofList (v.prettyChars 0)

/-- The text of a value in one of the two forms. -/
def render (v : Value) (indented : Bool) : String := if indented then v.pretty else v.compact

end ScreenFlow.Json.Value
