import ContentIndex.Json.Value

/-
  JSON text of a value: no blanks, members in the order they stand. Inside strings a quote, a
  backslash and the control characters are escaped, the five common ones with a letter and the
  others as four hexadecimal digits; every other character stands for itself. In particular no
  text holds a line break.
-/

namespace ContentIndex.Json

/-- One character inside a string. -/
def escapeChar (c : Char) : List Char :=
  if c = '"' then ['\\', '"']
  else if c = '\\' then ['\\', '\\']
  else if c.toNat = 8 then ['\\', 'b']
  else if c.toNat = 9 then ['\\', 't']
  else if c.toNat = 10 then ['\\', 'n']
  else if c.toNat = 12 then ['\\', 'f']
  else if c.toNat = 13 then ['\\', 'r']
  else if c.toNat < 32 then
    ['\\', 'u', '0', '0', (c.toNat / 16).digitChar, (c.toNat % 16).digitChar]
  else [c]

/-- A string between quotes. -/
def quoted (s : String) : List Char :=
  '"' :: (s.toList.flatMap escapeChar ++ ['"'])

mutual
/-- The text of a value. -/
def Value.chars : Value → List Char
  | .null => ['n', 'u', 'l', 'l']
  | .bool true => ['t', 'r', 'u', 'e']
  | .bool false => ['f', 'a', 'l', 's', 'e']
  | .number n => n.chars
  | .string s => quoted s
  | .array [] => ['[', ']']
  | .array (v :: vs) => '[' :: (v.chars ++ Value.itemsChars vs)
  | .object [] => ['\x7b', '\x7d']
  | .object ((k, v) :: ms) => '\x7b' :: (quoted k ++ ':' :: (v.chars ++ Value.membersChars ms))
termination_by structural v => v

/-- The items after the first, and the closing bracket. -/
def Value.itemsChars : List Value → List Char
  | [] => [']']
  | v :: vs => ',' :: (v.chars ++ Value.itemsChars vs)
termination_by structural vs => vs

/-- The members after the first, and the closing brace. -/
def Value.membersChars : List (String × Value) → List Char
  | [] => ['\x7d']
  | (k, v) :: ms => ',' :: (quoted k ++ ':' :: (v.chars ++ Value.membersChars ms))
termination_by structural ms => ms
end

/-- The text of a value. -/
def Value.render (v : Value) : String :=
  String.ofList v.chars

end ContentIndex.Json
