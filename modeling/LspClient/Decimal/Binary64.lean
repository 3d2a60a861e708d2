/-! Finite numbers of the 64-bit binary format, as sign, significand and power of two.
`nearest?` rounds a quotient of naturals, a half to the even neighbour; multiplication, division
and the reading of decimals are that one rounding of an exact quotient. -/
namespace LspClient

/-- The number `± significand * 2 ^ exponent`. The significand has 53 bits unless the exponent
is the least one, -1074. -/
structure Binary64 where
  negative : Bool
  significand : Nat
  exponent : Int
  deriving DecidableEq, Repr

namespace Binary64

def zero (negative : Bool) : Binary64 := ⟨negative, 0, -1074⟩

def halfEven (num den : Nat) : Nat :=
  let q := num / den
  let twice := 2 * (num % den)
  if twice < den ∨ (twice = den ∧ q % 2 = 0) then q else q + 1

def scaled (num den : Nat) (e : Int) : Nat × Nat :=
  (num * Nat.pow 2 (-e).toNat, den * Nat.pow 2 e.toNat)

def exponentOf (num den : Nat) : Int :=
  let guess : Int := (num.log2 : Int) - den.log2 - 52
  let (n, d) := scaled num den guess
  max (if n / d < Nat.pow 2 52 then guess - 1 else guess) (-1074)

def nearest? (negative : Bool) (num den : Nat) : Option Binary64 :=
  if num = 0 then some (zero negative) else
    let e := exponentOf num den
    let (n, d) := scaled num den e
    let m := halfEven n d
    let (m, e) := if m = Nat.pow 2 53 then (Nat.pow 2 52, e + 1) else (m, e)
    if e ≤ 971 then some ⟨negative, m, e⟩ else none

def ratio (x : Binary64) : Nat × Nat :=
  (x.significand * Nat.pow 2 x.exponent.toNat, Nat.pow 2 (-x.exponent).toNat)

def mul? (x y : Binary64) : Option Binary64 :=
  let (a, b) := x.ratio
  let (c, d) := y.ratio
  nearest? (x.negative != y.negative) (a * c) (b * d)

def div? (x y : Binary64) : Option Binary64 :=
  let (a, b) := x.ratio
  let (c, d) := y.ratio
  nearest? (x.negative != y.negative) (a * d) (b * c)

def tenTo (k : Nat) : Binary64 := (nearest? false (Nat.pow 10 k) 1).getD (zero false)

def shrink (x : Binary64) (k : Nat) : Option Binary64 :=
  if k ≤ 308 then x.div? (tenTo k)
  else if x.significand = 0 then some x
  else do
    let y ← x.div? (tenTo 308)
    shrink y (k - 308)
termination_by k

def ofDecimal? (negative : Bool) (digits : Nat) (power : Int) : Option Binary64 := do
  let x ← nearest? negative digits 1
  if power < 0 then x.shrink power.natAbs
  else if power ≤ 308 then x.mul? (tenTo power.toNat)
  else if digits = 0 then some x
  else none

end Binary64
end LspClient
