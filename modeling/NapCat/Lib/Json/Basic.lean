/-
JSON values and their text. A value keeps its numbers as validated literals and its objects as
lists of fields in the order written; `render` prints the compact text and `parse` reads a text
back, with whitespace between the tokens, escapes and surrogate pairs.
-/
import Mathlib.Data.List.DropRight
import Mathlib.Data.String.Basic

namespace Json

/-! ## Number literals -/

/-- The characters a number literal is made of. -/
def isNumChar (c : Char) : Bool :=
  c.isDigit || c == '-' || c == '+' || c == '.' || c == 'e' || c == 'E'

def allDigits : List Char → Bool := fun cs => cs.all Char.isDigit

/-- After `e` or `E`: an optional sign and at least one digit. -/
def exponent : List Char → Bool
  | '+' :: cs => !cs.isEmpty && allDigits cs
  | '-' :: cs => !cs.isEmpty && allDigits cs
  | cs => !cs.isEmpty && allDigits cs

/-- After at least one digit of the fraction. -/
def fracTail : List Char → Bool
  | [] => true
  | c :: cs => if c = 'e' ∨ c = 'E' then exponent cs else c.isDigit && fracTail cs

/-- After `.`. -/
def fraction : List Char → Bool
  | [] => false
  | c :: cs => c.isDigit && fracTail cs

/-- After the last digit of the integer part, or inside it when `more` digits are allowed. -/
def intTail (more : Bool) : List Char → Bool
  | [] => true
  | c :: cs =>
    if c = '.' then fraction cs
    else if c = 'e' ∨ c = 'E' then exponent cs
    else more && c.isDigit && intTail more cs

/-- A literal without its sign: no leading zero. -/
def unsigned : List Char → Bool
  | [] => false
  | c :: cs => if c = '0' then intTail false cs else c.isDigit && intTail true cs

def isNumber (cs : List Char) : Bool :=
  cs.all isNumChar && unsigned (if cs.head? = some '-' then cs.tail else cs)

/-- A number literal of the grammar, of any size. -/
structure Num where
  lit : List Char
  valid : isNumber lit = true
  deriving DecidableEq

/-! ## Values -/

end Json

/-- A JSON value; an object is the list of its fields as written. -/
inductive Json
  | null
  | bool (b : Bool)
  | num (n : Json.Num)
  | str (s : String)
  | arr (items : List Json)
  | obj (fields : List (String × Json))

namespace Json

/-! ## Printing -/

def hexDigit (n : Nat) : Char := "0123456789abcdef".toList.getD n '0'

/-- The escape of a control character: the short form where there is one. -/
def controlEscape (n : Nat) : List Char :=
  if n = 8 then ['\\', 'b']
  else if n = 9 then ['\\', 't']
  else if n = 10 then ['\\', 'n']
  else if n = 12 then ['\\', 'f']
  else if n = 13 then ['\\', 'r']
  else ['\\', 'u', '0', '0', hexDigit (n / 16), hexDigit (n % 16)]

def escapeChar (c : Char) : List Char :=
  if c = '"' then ['\\', '"']
  else if c = '\\' then ['\\', '\\']
  else if c.toNat < 0x20 then controlEscape c.toNat
  else [c]

/-- A string between its quotes. -/
def quote (s : List Char) : List Char := '"' :: (s.flatMap escapeChar ++ ['"'])

mutual

/-- The compact text of a value. -/
def render : Json → List Char
  | .null => ['n', 'u', 'l', 'l']
  | .bool true => ['t', 'r', 'u', 'e']
  | .bool false => ['f', 'a', 'l', 's', 'e']
  | .num n => n.lit
  | .str s => quote s.toList
  | .arr [] => ['[', ']']
  | .arr (x :: xs) => '[' :: (render x ++ renderItems xs)
  | .obj [] => ['{', '}']
  | .obj ((k, v) :: fs) => '{' :: (quote k.toList ++ ':' :: (render v ++ renderFields fs))

/-- The items of an array after the first one, and its bracket. -/
def renderItems : List Json → List Char
  | [] => [']']
  | x :: xs => ',' :: (render x ++ renderItems xs)

/-- The fields of an object after the first one, and its brace. -/
def renderFields : List (String × Json) → List Char
  | [] => ['}']
  | (k, v) :: fs => ',' :: (quote k.toList ++ ':' :: (render v ++ renderFields fs))

end

/-- `to_string`. -/
def toText (j : Json) : String := String.ofList j.render

mutual

/-- How deep arrays and objects are nested. -/
def depth : Json → Nat
  | .arr xs => depthItems xs + 1
  | .obj fs => depthFields fs + 1
  | _ => 0

def depthItems : List Json → Nat
  | [] => 0
  | x :: xs => max (depth x) (depthItems xs)

def depthFields : List (String × Json) → Nat
  | [] => 0
  | (_, v) :: fs => max (depth v) (depthFields fs)

end

/-! ## Parsing -/

def isSpace (c : Char) : Bool := c == ' ' || c == '\n' || c == '\t' || c == '\r'

def skipSpace (cs : List Char) : List Char := cs.dropWhile isSpace

def hexVal (c : Char) : Option Nat :=
  if '0' ≤ c ∧ c ≤ '9' then some (c.toNat - '0'.toNat)
  else if 'a' ≤ c ∧ c ≤ 'f' then some (c.toNat - 'a'.toNat + 10)
  else if 'A' ≤ c ∧ c ≤ 'F' then some (c.toNat - 'A'.toNat + 10)
  else none

def hex4 (a b c d : Char) : Option Nat := do
  return ((← hexVal a) * 16 + (← hexVal b)) * 256 + (← hexVal c) * 16 + (← hexVal d)

/-- The character after a backslash, `u` apart. -/
def unescape (c : Char) : Option Char :=
  if c = '"' ∨ c = '\\' ∨ c = '/' then some c
  else if c = 'b' then some '\x08'
  else if c = 'f' then some '\x0c'
  else if c = 'n' then some '\n'
  else if c = 'r' then some '\r'
  else if c = 't' then some '\t'
  else none

/-- The two halves of a surrogate pair as one character. -/
def surrogatePair (hi lo : Nat) : Option Char :=
  if 0xDC00 ≤ lo ∧ lo ≤ 0xDFFF then some (Char.ofNat ((hi - 0xD800) * 0x400 + (lo - 0xDC00) + 0x10000))
  else none

/-- The four hex digits after `\\u`, and the second half of a surrogate pair after a first one. -/
def unicodeEscape : List Char → Option (Char × List Char)
  | a :: b :: c :: d :: r =>
    match hex4 a b c d with
    | none => none
    | some n =>
      if 0xD800 ≤ n ∧ n ≤ 0xDBFF then
        -- the first half of a pair: the second one must follow at once
        match r with
        | '\\' :: 'u' :: a :: b :: c :: d :: r =>
          ((hex4 a b c d).bind (surrogatePair n)).map fun ch => (ch, r)
        | _ => none
      else if 0xDC00 ≤ n ∧ n ≤ 0xDFFF then none
      else some (Char.ofNat n, r)
  | _ => none

/-- The next character of a string, or `none` in its place at the closing quote. Raw control
characters and lone surrogates are errors. -/
def strChar : List Char → Option (Option Char × List Char)
  | [] => none
  | c :: r =>
    if c = '"' then some (none, r)
    else if c = '\\' then
      match r with
      | [] => none
      | e :: r =>
        if e = 'u' then (unicodeEscape r).map fun p => (some p.1, p.2)
        else (unescape e).map fun ch => (some ch, r)
    else if c.toNat < 0x20 then none
    else some (some c, r)

/-- The rest of a string after its opening quote: its characters and what follows the closing
quote. -/
def parseStr : Nat → List Char → Option (List Char × List Char)
  | 0, _ => none
  | fuel + 1, cs =>
    match strChar cs with
    | none => none
    | some (none, r) => some ([], r)
    | some (some c, r) => (parseStr fuel r).map fun p => (c :: p.1, p.2)

/-- The rest of a keyword. -/
def keyword (word : List Char) (v : Json) (cs : List Char) : Option (Json × List Char) :=
  if word.isPrefixOf cs then some (v, cs.drop word.length) else none

/-- The longest run of number characters, which must be a number. -/
def parseNum (cs : List Char) : Option (Json × List Char) :=
  if h : isNumber (cs.takeWhile isNumChar) = true then
    some (.num ⟨cs.takeWhile isNumChar, h⟩, cs.dropWhile isNumChar)
  else none

mutual

/-- A value and the text after it. `remaining` is how many more levels may be entered, plus one. -/
def parseValue : Nat → Nat → List Char → Option (Json × List Char)
  | 0, _, _ => none
  | fuel + 1, remaining, cs =>
    match skipSpace cs with
    | [] => none
    | c :: r =>
      if c = 'n' then keyword ['u', 'l', 'l'] .null r
      else if c = 't' then keyword ['r', 'u', 'e'] (.bool true) r
      else if c = 'f' then keyword ['a', 'l', 's', 'e'] (.bool false) r
      else if c = '"' then (parseStr r.length r).map fun p => (.str (String.ofList p.1), p.2)
      else if c = '[' then
        if remaining ≤ 1 then none
        else if (skipSpace r).head? = some ']' then some (.arr [], (skipSpace r).tail)
        else (parseItems fuel (remaining - 1) r).map fun p => (.arr p.1, p.2)
      else if c = '{' then
        if remaining ≤ 1 then none
        else if (skipSpace r).head? = some '}' then some (.obj [], (skipSpace r).tail)
        else (parseFields fuel (remaining - 1) r).map fun p => (.obj p.1, p.2)
      else parseNum (c :: r)

/-- One or more items and the closing bracket. -/
def parseItems : Nat → Nat → List Char → Option (List Json × List Char)
  | 0, _, _ => none
  | fuel + 1, remaining, cs =>
    match parseValue fuel remaining cs with
    | none => none
    | some (x, r) =>
      match skipSpace r with
      | ',' :: r => (parseItems fuel remaining r).map fun p => (x :: p.1, p.2)
      | ']' :: r => some ([x], r)
      | _ => none

/-- One or more fields and the closing brace. -/
def parseFields : Nat → Nat → List Char → Option (List (String × Json) × List Char)
  | 0, _, _ => none
  | fuel + 1, remaining, cs =>
    match skipSpace cs with
    | '"' :: r =>
      match parseStr r.length r with
      | none => none
      | some (k, r) =>
        match skipSpace r with
        | ':' :: r =>
          match parseValue fuel remaining r with
          | none => none
          | some (v, r) =>
            match skipSpace r with
            | ',' :: r => (parseFields fuel remaining r).map fun p => ((String.ofList k, v) :: p.1, p.2)
            | '}' :: r => some ([(String.ofList k, v)], r)
            | _ => none
        | _ => none
    | _ => none

end

/-- One value, nested as deep as the text has room for, with nothing but whitespace after it. -/
def parse (s : String) : Option Json :=
  match parseValue (s.toList.length + 1) (s.toList.length + 1) s.toList with
  | none => none
  | some (j, r) => if (skipSpace r).isEmpty then some j else none

end Json
