import ScreenFlow.Number.Numeral

/-!
# JSON lexemes

The text of a document is a sequence of lexemes with blanks between them. A scanner reads it one
character at a time. A numeral out of range and a string with half a surrogate pair are well formed
but stand for nothing, so each has a lexeme of its own: a reader may skip it, but not use it.
-/

namespace ScreenFlow.Json

/-- A lexeme of a JSON text. -/
inductive Token where
  | openArray
  | closeArray
  | openObject
  | closeObject
  | comma
  | colon
  | null
  | bool (b : Bool)
  | number (n : Number)
  | string (s : String)
  /-- A well-formed numeral whose value is out of range. -/
  | illegibleNumber
  /-- A well-formed string with an unpaired surrogate. -/
  | illegibleString
  deriving DecidableEq, Repr

/-! ## Writing -/

/-- The lower-case hexadecimal digit of a number below 16. -/
def hexDigit (n : Nat) : Char := if n < 10 then Char.ofNat (48 + n) else Char.ofNat (87 + n)

/-- A character as it stands inside quotes. -/
def escapedChar (c : Char) : List Char :=
  if c = '"' then ['\\', '"']
  else if c = '\\' then ['\\', '\\']
  else if c = '\n' then ['\\', 'n']
  else if c = '\r' then ['\\', 'r']
  else if c = '\t' then ['\\', 't']
  else if c.toNat = 8 then ['\\', 'b']
  else if c.toNat = 12 then ['\\', 'f']
  else if c.toNat < 32 then
    ['\\', 'u', '0', '0', hexDigit (c.toNat / 16), hexDigit (c.toNat % 16)]
  else [c]

/-- A text in quotes: only quotes, backslashes and control characters are escaped. -/
def quotedChars (s : String) : List Char := '"' :: s.toList.flatMap escapedChar ++ ['"']

/-- The text of a lexeme. One that stands for nothing is never written. -/
def Token.chars : Token → List Char
  | .openArray => ['[']
  | .closeArray => [']']
  | .openObject => ['\x7b']
  | .closeObject => ['\x7d']
  | .comma => [',']
  | .colon => [':']
  | .null => ['n', 'u', 'l', 'l']
  | .bool true => ['t', 'r', 'u', 'e']
  | .bool false => ['f', 'a', 'l', 's', 'e']
  | .number n => n.chars
  | .string s => quotedChars s
  | .illegibleNumber => []
  | .illegibleString => []

/-! ## Reading strings -/

/-- How far an escape inside a string has been read. -/
inductive Escape where
  | none
  /-- After the backslash. -/
  | started
  /-- Inside the four hexadecimal digits: how many are left, and their value so far. -/
  | hex (left : Nat) (value : Nat)
  deriving DecidableEq, Repr

/-- A string that is being read. -/
structure OpenString where
  /-- The characters so far, the latest first. -/
  chars : List Char
  /-- Whether every surrogate so far had its other half. -/
  legible : Bool
  /-- The first half of a surrogate pair, when it came last. -/
  highSurrogate : Option Nat
  escape : Escape
  deriving DecidableEq, Repr

namespace OpenString

/-- The string after the opening quote. -/
def start : OpenString := ⟨[], true, none, .none⟩

/-- Adds a character. A first half of a pair that is still waiting has then no second. -/
def push (s : OpenString) (c : Char) : OpenString :=
  ⟨c :: s.chars, s.legible && s.highSurrogate.isNone, none, .none⟩

/-- The character of a surrogate pair. -/
def pairChar (high low : Nat) : Char :=
  Char.ofNat (0x10000 + (high - 0xD800) * 0x400 + (low - 0xDC00))

/-- Adds the code unit of a hexadecimal escape. -/
def pushUnit (s : OpenString) (unit : Nat) : OpenString :=
  if 0xDC00 ≤ unit ∧ unit < 0xE000 then
    match s.highSurrogate with
    | some high => ⟨pairChar high unit :: s.chars, s.legible, none, .none⟩
    | none => ⟨s.chars, false, none, .none⟩
  else if 0xD800 ≤ unit ∧ unit < 0xDC00 then
    ⟨s.chars, s.legible && s.highSurrogate.isNone, some unit, .none⟩
  else s.push (Char.ofNat unit)

/-- The lexeme of a string at its closing quote. -/
def close (s : OpenString) : Token :=
  if s.legible && s.highSurrogate.isNone then .string (String.ofList s.chars.reverse)
  else .illegibleString

/-- The character that a one-letter escape stands for. -/
def unescape (c : Char) : Option Char :=
  if c = '"' ∨ c = '\\' ∨ c = '/' then some c
  else if c = 'n' then some '\n'
  else if c = 'r' then some '\r'
  else if c = 't' then some '\t'
  else if c = 'b' then some (Char.ofNat 8)
  else if c = 'f' then some (Char.ofNat 12)
  else none

/-- The value of a hexadecimal digit of either case. -/
def hexValue (c : Char) : Option Nat :=
  if '0' ≤ c ∧ c ≤ '9' then some (c.toNat - 48)
  else if 'a' ≤ c ∧ c ≤ 'f' then some (c.toNat - 87)
  else if 'A' ≤ c ∧ c ≤ 'F' then some (c.toNat - 55)
  else none

end OpenString

/-! ## The scanner -/

/-- What a scanner is inside of. -/
inductive ScanMode where
  | between
  /-- A bare word, the latest letter first. -/
  | word (letters : List Char)
  /-- A numeral, the latest character first. -/
  | numeral (chars : List Char)
  | string (s : OpenString)
  /-- The text is not JSON. -/
  | failed
  deriving DecidableEq, Repr

/-- A scanner between two characters: the lexemes read, latest first, and what it is inside. -/
structure Scanner where
  tokens : List Token
  mode : ScanMode
  deriving DecidableEq, Repr

/-- A character that may stand between lexemes. -/
def isBlank (c : Char) : Bool := c == ' ' || c == '\n' || c == '\r' || c == '\t'

/-- A character of a numeral. -/
def isNumeralChar (c : Char) : Bool :=
  c.isDigit || c == '-' || c == '+' || c == '.' || c == 'e' || c == 'E'

/-- The lexeme of a bare word. -/
def wordToken? (letters : List Char) : Option Token :=
  if letters = ['n', 'u', 'l', 'l'] then some .null
  else if letters = ['t', 'r', 'u', 'e'] then some (.bool true)
  else if letters = ['f', 'a', 'l', 's', 'e'] then some (.bool false)
  else none

/-- The lexeme of a numeral. -/
def numeralToken? (chars : List Char) : Option Token :=
  (Numeral.ofChars? chars).map fun numeral =>
    match numeral.number? with
    | some n => .number n
    | none => .illegibleNumber

/-- The lexeme of one mark. -/
def markToken? (c : Char) : Option Token :=
  if c = '[' then some .openArray
  else if c = ']' then some .closeArray
  else if c = '\x7b' then some .openObject
  else if c = '\x7d' then some .closeObject
  else if c = ',' then some .comma
  else if c = ':' then some .colon
  else none

namespace Scanner

/-- Before the first character. -/
def start : Scanner := ⟨[], .between⟩

/-- Adds a lexeme, or fails where there is none. -/
def emit (tokens : List Token) : Option Token → Scanner
  | some t => ⟨t :: tokens, .between⟩
  | none => ⟨tokens, .failed⟩

/-- Takes a character that begins a lexeme or stands between two. -/
def begin (tokens : List Token) (c : Char) : Scanner :=
  if isBlank c then ⟨tokens, .between⟩
  else if c = '"' then ⟨tokens, .string .start⟩
  else if c.isDigit || c == '-' then ⟨tokens, .numeral [c]⟩
  else if c.isLower then ⟨tokens, .word [c]⟩
  else emit tokens (markToken? c)

/-- Takes a character inside a string. -/
def stepString (tokens : List Token) (s : OpenString) (c : Char) : Scanner :=
  match s.escape with
  | .none =>
    if c = '"' then ⟨s.close :: tokens, .between⟩
    else if c = '\\' then ⟨tokens, .string { s with escape := .started }⟩
    else if c.toNat < 32 then ⟨tokens, .failed⟩
    else ⟨tokens, .string (s.push c)⟩
  | .started =>
    if c = 'u' then ⟨tokens, .string { s with escape := .hex 4 0 }⟩
    else
      match OpenString.unescape c with
      | some c => ⟨tokens, .string (s.push c)⟩
      | none => ⟨tokens, .failed⟩
  | .hex left value =>
    match OpenString.hexValue c with
    | none => ⟨tokens, .failed⟩
    | some digit =>
      if left = 1 then ⟨tokens, .string (s.pushUnit (16 * value + digit))⟩
      else ⟨tokens, .string { s with escape := .hex (left - 1) (16 * value + digit) }⟩

/-- Ends a word or numeral that is being read. -/
def flush (s : Scanner) : Scanner :=
  match s.mode with
  | .word letters => emit s.tokens (wordToken? letters.reverse)
  | .numeral chars => emit s.tokens (numeralToken? chars.reverse)
  | _ => s

/-- Takes one character. -/
def step (s : Scanner) (c : Char) : Scanner :=
  match s.mode with
  | .between => begin s.tokens c
  | .string open_ => stepString s.tokens open_ c
  | .word letters =>
    if c.isLower then ⟨s.tokens, .word (c :: letters)⟩
    else
      let ended := s.flush
      if ended.mode = .between then begin ended.tokens c else ended
  | .numeral chars =>
    if isNumeralChar c then ⟨s.tokens, .numeral (c :: chars)⟩
    else
      let ended := s.flush
      if ended.mode = .between then begin ended.tokens c else ended
  | .failed => s

end Scanner

/-- The lexemes of a text, or nothing where it does not divide into lexemes. -/
def tokens? (text : List Char) : Option (List Token) :=
  let last := (text.foldl Scanner.step .start).flush
  if last.mode = .between then some last.tokens.reverse else none

end ScreenFlow.Json
