import ContentIndex.Json.Number

/-
  The tokens of JSON text. Blanks are space, tab, line feed and carriage return. A number or a
  string that is well formed but has no value (a number that is too large, an escaped
  surrogate without its partner) is a token without a value: whether that matters depends on who
  reads it.
-/

namespace ContentIndex.Json

open ContentIndex.Text (hexDigit? takeDigits dropLead? ofDigits)

inductive Token where
  | openArray
  | closeArray
  | openObject
  | closeObject
  | comma
  | colon
  | null
  | bool (b : Bool)
  | number (n : Option Number)
  | string (s : Option String)
deriving DecidableEq

def isSpace (c : Char) : Bool :=
  c == ' ' || c == '\t' || c == '\n' || c == '\r'

/-- The value of four hexadecimal digits. -/
def hex4? (a b c d : Char) : Option Nat :=
  match hexDigit? a, hexDigit? b, hexDigit? c, hexDigit? d with
  | some a, some b, some c, some d => some (4096 * a + 256 * b + 16 * c + d)
  | _, _, _, _ => none

/-- The character that a letter after a backslash stands for. -/
def simpleEscape? : Char → Option Char
  | '"' => some '"'
  | '\\' => some '\\'
  | '/' => some '/'
  | 'b' => some '\x08'
  | 'f' => some '\x0c'
  | 'n' => some '\n'
  | 'r' => some '\r'
  | 't' => some '\t'
  | _ => none

/-- A piece of a string: a character, or half of one written as an escaped surrogate. -/
inductive Piece where
  | char (c : Char)
  | half (unit : Nat)

/-- The piece that a sixteen-bit unit stands for. -/
def Piece.ofUnit (u : Nat) : Piece :=
  if 0xD800 ≤ u ∧ u < 0xE000 then .half u else .char (Char.ofNat u)

/-- The characters of the pieces. Halves come in pairs, the high one first. -/
def joinPieces : List Piece → Option (List Char)
  | [] => some []
  | .char c :: r => (joinPieces r).map (c :: ·)
  | .half hi :: .half lo :: r =>
    if hi < 0xDC00 ∧ 0xDC00 ≤ lo then
      (joinPieces r).map (Char.ofNat (0x10000 + (hi - 0xD800) * 0x400 + (lo - 0xDC00)) :: ·)
    else none
  | .half _ :: _ => none

/-- What follows an opening quote: the pieces up to the closing one, and the text after it. -/
def scanString : List Char → Option (List Piece × List Char)
  | [] => none
  | '"' :: r => some ([], r)
  | '\\' :: 'u' :: a :: b :: c :: d :: r =>
    (hex4? a b c d).bind fun u => (scanString r).map fun (s, t) => (Piece.ofUnit u :: s, t)
  | '\\' :: c :: r =>
    (simpleEscape? c).bind fun e => (scanString r).map fun (s, t) => (.char e :: s, t)
  | c :: r =>
    if c.toNat < 32 ∨ c = '\\' then none
    else (scanString r).map fun (s, t) => (.char c :: s, t)

/-- A power of ten after its letter: an optional sign and at least one digit. -/
def scanPower (cs : List Char) : Option (Int × List Char) :=
  let (negative, r) := match cs with
    | '-' :: r => (true, r)
    | '+' :: r => (false, r)
    | r => (false, r)
  match takeDigits r with
  | ([], _) => none
  | (ds, rest) => some (if negative then -(ofDigits ds : Int) else ofDigits ds, rest)

/-- A point and at least one digit, if there is a point. -/
def scanFraction : List Char → Option (Option (List Nat) × List Char)
  | '.' :: r =>
    match takeDigits r with
    | ([], _) => none
    | (ds, rest) => some (some ds, rest)
  | r => some (none, r)

/-- A number after its sign: no digit stands before or after a leading zero. -/
def scanUnsigned (negative : Bool) (cs : List Char) : Option (Option Number × List Char) :=
  match takeDigits cs with
  | ([], _) | (0 :: _ :: _, _) => none
  | (whole, r) =>
    match scanFraction r with
    | none => none
    | some (part, c :: r) =>
      if c = 'e' ∨ c = 'E' then
        (scanPower r).map fun (p, rest) => (Number.ofDigits? negative whole part (some p), rest)
      else some (Number.ofDigits? negative whole part none, c :: r)
    | some (part, []) => some (Number.ofDigits? negative whole part none, [])

/-- A number, with a minus sign or without. -/
def scanNumber : List Char → Option (Option Number × List Char)
  | '-' :: r => scanUnsigned true r
  | cs => scanUnsigned false cs

/-- The first token of a text that starts with no blank, and the text after it. -/
def scanToken : List Char → Option (Token × List Char)
  | [] => none
  | '[' :: r => some (.openArray, r)
  | ']' :: r => some (.closeArray, r)
  | '\x7b' :: r => some (.openObject, r)
  | '\x7d' :: r => some (.closeObject, r)
  | ',' :: r => some (.comma, r)
  | ':' :: r => some (.colon, r)
  | '"' :: r => (scanString r).map fun (s, t) => (.string ((joinPieces s).map String.ofList), t)
  | 'n' :: r => (dropLead? ['u', 'l', 'l'] r).map fun t => (.null, t)
  | 't' :: r => (dropLead? ['r', 'u', 'e'] r).map fun t => (.bool true, t)
  | 'f' :: r => (dropLead? ['a', 'l', 's', 'e'] r).map fun t => (.bool false, t)
  | cs => (scanNumber cs).map fun (n, t) => (.number n, t)

/-- The tokens of a text. Each takes at least one character, so the length of the text bounds
their number. -/
def scanTokens : (fuel : Nat) → List Char → Option (List Token)
  | 0, cs => if (cs.dropWhile isSpace).isEmpty then some [] else none
  | fuel + 1, cs =>
    match cs.dropWhile isSpace with
    | [] => some []
    | c :: r =>
      match scanToken (c :: r) with
      | none => none
      | some (t, rest) => (scanTokens fuel rest).map (t :: ·)

/-- The tokens of a text; none if it is not made of tokens and blanks. -/
def tokens? (s : String) : Option (List Token) :=
  scanTokens s.toList.length s.toList

end ContentIndex.Json
