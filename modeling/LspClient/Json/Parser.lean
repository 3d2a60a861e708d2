import LspClient.Json.Token

/-! Reading a JSON value. Containers nest at most `depthLimit` deep, which also bounds the
recursion; the number of items is bounded by the length of the text. -/
namespace LspClient.Json

def depthLimit : Nat := 127

def sequence (close : Char) (item : List Char → Read (α × List Char)) :
    Nat → List Char → Read (List α × List Char)
  | 0, _ => .error .unexpected
  | bound + 1, cs => do
    let (x, cs) ← item cs
    match skipBlank cs with
    | [] => .error .ended
    | c :: cs =>
      if c = close then .ok ([x], cs)
      else if c = ',' then do
        let (xs, cs) ← sequence close item bound cs
        .ok (x :: xs, cs)
      else .error .unexpected

def bracketed (close : Char) (item : List Char → Read (α × List Char)) (cs : List Char) :
    Read (List α × List Char) :=
  match skipBlank cs with
  | [] => .error .ended
  | c :: rest => if c = close then .ok ([], rest) else sequence close item (rest.length + 1) (c :: rest)

def member (value : List Char → Read (α × List Char)) (cs : List Char) :
    Read ((String × α) × List Char) :=
  match skipBlank cs with
  | '"' :: cs => do
    let (name, cs) ← text cs
    match skipBlank cs with
    | ':' :: cs => do
      let (x, cs) ← value cs
      .ok ((name, x), cs)
    | [] => .error .ended
    | _ => .error .unexpected
  | [] => .error .ended
  | _ => .error .unexpected

def simple (c : Char) (cs : List Char) : Read (Json × List Char) :=
  if c = 'n' then (word ['u', 'l', 'l'] cs).map (.null, ·)
  else if c = 't' then (word ['r', 'u', 'e'] cs).map (.bool true, ·)
  else if c = 'f' then (word ['a', 'l', 's', 'e'] cs).map (.bool false, ·)
  else if c = '"' then (text cs).map fun r => (.string r.1, r.2)
  else if startsNumber c then number (c :: cs)
  else .error .unexpected

def value : (depth : Nat) → List Char → Read (Json × List Char)
  | 0, cs =>
    match skipBlank cs with
    | [] => .error .ended
    | c :: cs => simple c cs
  | depth + 1, cs =>
    match skipBlank cs with
    | [] => .error .ended
    | c :: cs =>
      if c = '[' then (bracketed ']' (value depth) cs).map fun r => (.array r.1, r.2)
      else if c = '\x7b' then
        (bracketed '\x7d' (member (value depth)) cs).map fun r => (ofFields r.1, r.2)
      else simple c cs

def parseChars (cs : List Char) : Read Json := do
  let (v, rest) ← value depthLimit cs
  match skipBlank rest with
  | [] => .ok v
  | _ => .error .unexpected

def parse? (s : String) : Option Json := (parseChars s.toList).toOption

end LspClient.Json
