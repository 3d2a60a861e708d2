import LspClient.Json.Value

/-! The words of JSON text: blanks, literals, strings and numbers, each read off the front of a
character list. A reader that stops says whether the text ended too early or went wrong. -/
namespace LspClient.Json

inductive Stop where
  | ended
  | unexpected
  deriving DecidableEq, Repr

abbrev Read := Except Stop

def isBlank (c : Char) : Bool := c == ' ' || c == '\t' || c == '\n' || c == '\r'

def skipBlank (cs : List Char) : List Char := cs.dropWhile isBlank

def word : List Char → List Char → Read (List Char)
  | [], rest => .ok rest
  | _ :: _, [] => .error .ended
  | w :: ws, c :: cs => if w = c then word ws cs else .error .unexpected

def hexValue? (c : Char) : Option Nat :=
  if '0' ≤ c ∧ c ≤ '9' then some (c.toNat - '0'.toNat)
  else if 'a' ≤ c ∧ c ≤ 'f' then some (c.toNat - 'a'.toNat + 10)
  else if 'A' ≤ c ∧ c ≤ 'F' then some (c.toNat - 'A'.toNat + 10)
  else none

def fourOctets : List Char → Bool
  | a :: b :: c :: d :: _ => 4 ≤ a.utf8Size + b.utf8Size + c.utf8Size + d.utf8Size
  | cs => 4 ≤ cs.foldl (fun n c => n + c.utf8Size) 0

inductive Place where
  | plain
  | escape
  | digits (owed : Nat) (value : Nat) (high : Option Nat)
  | pair (high : Nat)
  | pairEscape (high : Nat)
  deriving DecidableEq, Repr

def shortEscape? (c : Char) : Option Char :=
  if c = '"' ∨ c = '\\' ∨ c = '/' then some c
  else if c = 'b' then some '\x08'
  else if c = 'f' then some '\x0c'
  else if c = 'n' then some '\n'
  else if c = 'r' then some '\r'
  else if c = 't' then some '\t'
  else none

def isHighHalf (n : Nat) : Bool := 0xD800 ≤ n && n ≤ 0xDBFF

def isLowHalf (n : Nat) : Bool := 0xDC00 ≤ n && n ≤ 0xDFFF

def closeEscape (high : Option Nat) (n : Nat) : Read (Char ⊕ Nat) :=
  match high with
  | none =>
    if isHighHalf n then .ok (.inr n)
    else if isLowHalf n then .error .unexpected
    else .ok (.inl (Char.ofNat n))
  | some h =>
    if isLowHalf n then .ok (.inl (Char.ofNat (0x10000 + (h - 0xD800) * 0x400 + (n - 0xDC00))))
    else .error .unexpected

/-- A string after its opening quote. `strict` asks for whole surrogate pairs and yields the text
(`read` holds it backwards); otherwise numeric escapes need only four hexadecimal digits, and
the text is not meaningful. -/
def scanString (strict : Bool) : Place → (read : List Char) → List Char → Read (List Char × List Char)
  | _, _, [] => .error .ended
  | .plain, read, c :: cs =>
    if c = '"' then .ok (read.reverse, cs)
    else if c = '\\' then scanString strict .escape read cs
    else if c.toNat < 0x20 then .error .unexpected
    else scanString strict .plain (c :: read) cs
  | .escape, read, c :: cs =>
    if c = 'u' then
      if fourOctets cs then scanString strict (.digits 4 0 none) read cs else .error .ended
    else match shortEscape? c with
      | some d => scanString strict .plain (d :: read) cs
      | none => .error .unexpected
  | .digits owed value high, read, c :: cs =>
    match hexValue? c with
    | none => .error .unexpected
    | some h =>
      let value := value * 16 + h
      if 1 < owed then scanString strict (.digits (owed - 1) value high) read cs
      else if !strict then scanString strict .plain read cs
      else match closeEscape high value with
        | .error stop => .error stop
        | .ok (.inl d) => scanString strict .plain (d :: read) cs
        | .ok (.inr h) => scanString strict (.pair h) read cs
  | .pair high, read, c :: cs =>
    if c = '\\' then scanString strict (.pairEscape high) read cs else .error .unexpected
  | .pairEscape high, read, c :: cs =>
    if c = 'u' then
      if fourOctets cs then scanString strict (.digits 4 0 (some high)) read cs else .error .ended
    else .error .unexpected

def text (cs : List Char) : Read (String × List Char) :=
  (scanString true .plain [] cs).map fun r => (String.ofList r.1, r.2)

def digitsOf (cs : List Char) : List Nat := cs.map fun c => c.toNat - '0'.toNat

def someDigits (cs : List Char) : Read (List Nat × List Char) :=
  match cs.span Char.isDigit with
  | ([], []) => .error .ended
  | ([], _) => .error .unexpected
  | (ds, rest) => .ok (digitsOf ds, rest)

structure Numeral where
  negative : Bool
  whole : List Nat
  fraction : Option (List Nat)
  power : Option Int
  deriving DecidableEq, Repr

def wholePart (cs : List Char) : Read (List Nat × List Char) := do
  let (ds, rest) ← someDigits cs
  match ds with
  | 0 :: _ :: _ => .error .unexpected
  | _ => .ok (ds, rest)

def fractionPart : List Char → Read (Option (List Nat) × List Char)
  | '.' :: cs => do
    let (ds, rest) ← someDigits cs
    .ok (some ds, rest)
  | cs => .ok (none, cs)

def ofDigits (ds : List Nat) : Nat := ds.foldl (fun n d => n * 10 + d) 0

def powerPart : List Char → Read (Option Int × List Char)
  | c :: cs =>
    if c = 'e' ∨ c = 'E' then
      let (negative, cs) := match cs with
        | '-' :: cs => (true, cs)
        | '+' :: cs => (false, cs)
        | cs => (false, cs)
      do
        let (ds, rest) ← someDigits cs
        .ok (some (if negative then -(ofDigits ds : Int) else ofDigits ds), rest)
    else .ok (none, c :: cs)
  | [] => .ok (none, [])

def numeral (cs : List Char) : Read (Numeral × List Char) := do
  let (negative, cs) := match cs with
    | '-' :: cs => (true, cs)
    | cs => (false, cs)
  let (whole, cs) ← wholePart cs
  let (fraction, cs) ← fractionPart cs
  let (power, cs) ← powerPart cs
  .ok (⟨negative, whole, fraction, power⟩, cs)

def fill : Nat → List Nat → Nat × List Nat
  | n, [] => (n, [])
  | n, d :: ds => if n * 10 + d < Nat.pow 2 64 then fill (n * 10 + d) ds else (n, d :: ds)

/-- Integers within 64 bits, with sign or without, are kept exactly. Any other numeral is a binary
number made of the digits that fit 64 bits and a power of ten. A numeral out of range has none. -/
def Numeral.value? (n : Numeral) : Option Json :=
  let (kept, left) := fill 0 n.whole
  let plain := n.fraction.isNone && n.power.isNone && left.isEmpty
  if plain && !n.negative then some (.integer kept)
  else if plain && 0 < kept && kept ≤ Nat.pow 2 63 then some (.integer (-(kept : Int)))
  else
    let fraction := n.fraction.getD []
    let (kept, unread) := fill kept fraction
    let power : Int := left.length - ((fraction.length : Int) - unread.length) + n.power.getD 0
    (Binary64.ofDecimal? n.negative kept power).map .real

def number (cs : List Char) : Read (Json × List Char) := do
  let (n, rest) ← numeral cs
  match n.value? with
  | some value => .ok (value, rest)
  | none => .error .unexpected

def startsNumber (c : Char) : Bool := c == '-' || c.isDigit

end LspClient.Json
