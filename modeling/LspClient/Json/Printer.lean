import LspClient.Json.Value

/-! The compact text of a JSON value: no blanks, fields in their order, and escapes only where
the grammar asks for them. -/
namespace LspClient.Json

def hexDigit (n : Nat) : Char := Nat.digitChar n

def escaped (c : Char) : List Char :=
  if c = '"' then ['\\', '"']
  else if c = '\\' then ['\\', '\\']
  else if c = '\x08' then ['\\', 'b']
  else if c = '\t' then ['\\', 't']
  else if c = '\n' then ['\\', 'n']
  else if c = '\x0c' then ['\\', 'f']
  else if c = '\r' then ['\\', 'r']
  else if c.toNat < 0x20 then
    ['\\', 'u', '0', '0', hexDigit (c.toNat / 16), hexDigit (c.toNat % 16)]
  else [c]

def quoted (cs : List Char) : List Char := '"' :: cs.flatMap escaped ++ ['"']

def intChars : Int → List Char
  | .ofNat n => Nat.toDigits 10 n
  | .negSucc n => '-' :: Nat.toDigits 10 (n + 1)

mutual
def chars : Json → List Char
  | .null => ['n', 'u', 'l', 'l']
  | .bool true => ['t', 'r', 'u', 'e']
  | .bool false => ['f', 'a', 'l', 's', 'e']
  | .integer n => intChars n
  | .real x => x.chars
  | .string s => quoted s.toList
  | .array items => '[' :: itemChars items
  | .object fields => '\x7b' :: fieldChars fields

def itemChars : List Json → List Char
  | [] => [']']
  | [item] => chars item ++ [']']
  | item :: next :: rest => chars item ++ ',' :: itemChars (next :: rest)

def fieldChars : List (String × Json) → List Char
  | [] => ['\x7d']
  | [(name, value)] => quoted name.toList ++ ':' :: chars value ++ ['\x7d']
  | (name, value) :: next :: rest =>
    quoted name.toList ++ ':' :: chars value ++ ',' :: fieldChars (next :: rest)
end

def compact (value : Json) : String := String.ofList (chars value)

end LspClient.Json
