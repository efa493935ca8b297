import DesiredState.Json.Number

/-!
# Writing JSON

The compact form has no blanks. The indented form puts each item and member on a line of its
own, two spaces deeper than its container; empty containers stay on one line.
-/

namespace DesiredState.Json

/-- The lower-case hexadecimal digit of a number below sixteen. -/
def hexChar (n : Nat) : Char :=
  if n < 10 then Char.ofNat ('0'.toNat + n) else Char.ofNat ('a'.toNat + (n - 10))

/-- A character inside a string. Quotes, backslashes and control characters are escaped. -/
def escapeChar (c : Char) : List Char :=
  if c = '"' then ['\\', '"']
  else if c = '\\' then ['\\', '\\']
  else if c = '\x08' then ['\\', 'b']
  else if c = '\x0c' then ['\\', 'f']
  else if c = '\n' then ['\\', 'n']
  else if c = '\r' then ['\\', 'r']
  else if c = '\t' then ['\\', 't']
  else if c < ' ' then ['\\', 'u', '0', '0', hexChar (c.toNat / 16), hexChar (c.toNat % 16)]
  else [c]

def stringChars (s : String) : List Char := '"' :: (s.toList.flatMap escapeChar ++ ['"'])

mutual

def chars : Json → List Char
  | .null => ['n', 'u', 'l', 'l']
  | .bool true => ['t', 'r', 'u', 'e']
  | .bool false => ['f', 'a', 'l', 's', 'e']
  | .num n => n.chars
  | .str s => stringChars s
  | .arr [] => ['[', ']']
  | .arr (v :: rest) => '[' :: (chars v ++ itemsChars rest)
  | .obj [] => ['{', '}']
  | .obj ((k, v) :: rest) => '{' :: (stringChars k ++ ':' :: (chars v ++ membersChars rest))

/-- Further items and the closing bracket. -/
def itemsChars : List Json → List Char
  | [] => [']']
  | v :: rest => ',' :: (chars v ++ itemsChars rest)

/-- Further members and the closing brace. -/
def membersChars : List (String × Json) → List Char
  | [] => ['}']
  | (k, v) :: rest => ',' :: (stringChars k ++ ':' :: (chars v ++ membersChars rest))

end

def render (v : Json) : String := String.ofList v.chars

/-- A line break and two spaces for each level. -/
def newline (level : Nat) : List Char := '\n' :: List.replicate (2 * level) ' '

mutual

/-- The indented form of a value that stands at some level. -/
def indentedChars (level : Nat) : Json → List Char
  | .arr (v :: rest) =>
    '[' :: (newline (level + 1) ++ indentedChars (level + 1) v ++ indentedItems level rest)
  | .obj ((k, v) :: rest) =>
    '{' :: (newline (level + 1) ++ stringChars k ++ ':' :: ' ' :: indentedChars (level + 1) v
      ++ indentedMembers level rest)
  | .arr [] => ['[', ']']
  | .obj [] => ['{', '}']
  | .null => ['n', 'u', 'l', 'l']
  | .bool true => ['t', 'r', 'u', 'e']
  | .bool false => ['f', 'a', 'l', 's', 'e']
  | .num n => n.chars
  | .str s => stringChars s

/-- Further items and the closing bracket on its own line. -/
def indentedItems (level : Nat) : List Json → List Char
  | [] => newline level ++ [']']
  | v :: rest =>
    ',' :: (newline (level + 1) ++ indentedChars (level + 1) v ++ indentedItems level rest)

/-- Further members and the closing brace on its own line. -/
def indentedMembers (level : Nat) : List (String × Json) → List Char
  | [] => newline level ++ ['}']
  | (k, v) :: rest =>
    ',' :: (newline (level + 1) ++ stringChars k ++ ':' :: ' ' :: indentedChars (level + 1) v
      ++ indentedMembers level rest)

end

def renderIndented (v : Json) : String := String.ofList (indentedChars 0 v)

end DesiredState.Json
