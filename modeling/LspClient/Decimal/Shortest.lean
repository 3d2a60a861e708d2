import LspClient.Decimal.Binary64

/-! The shortest decimal that reads back as a given number, and its text.
The reals that round to the number form an interval, which holds its ends exactly when the
significand is even. On the grids of 1, 2, … 17 digits the neighbours of the number are tried:
the first grid with a hit decides, of two hits the nearer one, and of two equally near the even one. -/
namespace LspClient.Binary64

/-- Four times the significand, and the distances to the ends of the rounding interval in the
same unit. The lower gap is half as wide just above a power of two. -/
def gaps (x : Binary64) : Nat × Nat × Nat :=
  (4 * x.significand, if x.significand = Nat.pow 2 52 ∧ -1074 < x.exponent then 1 else 2, 2)

def roundsTo (x : Binary64) (d : Nat) (p : Int) : Bool :=
  let (mid, below, above) := x.gaps
  let unit := x.exponent - 2
  let left (n : Nat) := n * Nat.pow 2 unit.toNat * Nat.pow 10 (-p).toNat
  let point := d * Nat.pow 10 p.toNat * Nat.pow 2 (-unit).toNat
  if x.significand % 2 = 0 then left (mid - below) ≤ point && point ≤ left (mid + above)
  else left (mid - below) < point && point < left (mid + above)

def quotient (x : Binary64) (p : Int) : Nat × Nat :=
  let (a, b) := x.ratio
  (a * Nat.pow 10 (-p).toNat, b * Nat.pow 10 p.toNat)

def magnitude (x : Binary64) : Int :=
  let (a, b) := x.quotient (-400)
  ((Nat.toDigits 10 (a / b)).length : Int) - 401

def onGrid? (x : Binary64) (p : Int) : Option Nat :=
  let (n, d) := x.quotient p
  let low := n / d
  match x.roundsTo low p, x.roundsTo (low + 1) p with
  | true, true => some (halfEven n d)
  | true, false => some low
  | false, true => some (low + 1)
  | false, false => none

def search (x : Binary64) (top : Int) (count : Nat) : Nat → Nat × Int
  | 0 => (((x.onGrid? (top - count)).getD 0), top - count)
  | more + 1 =>
    match x.onGrid? (top - count) with
    | some d => (d, top - count)
    | none => search x top (count + 1) more

def trimZeros : Nat → Nat × Int → Nat × Int
  | 0, r => r
  | n + 1, (d, p) => if d ≠ 0 ∧ d % 10 = 0 then trimZeros n (d / 10, p + 1) else (d, p)

def shortest (x : Binary64) : Nat × Int := trimZeros 20 (x.search x.magnitude 0 16)

def chars (x : Binary64) : List Char :=
  let sign := if x.negative then ['-'] else []
  if x.significand = 0 then sign ++ ['0', '.', '0'] else
    let (d, p) := x.shortest
    let digits := Nat.toDigits 10 d
    let top : Int := (digits.length : Int) - 1 + p
    sign ++
      if top < -5 ∨ 15 < top then
        let mark := if top < 0 then ['e', '-'] else ['e', '+']
        let fraction := if digits.length = 1 then [] else '.' :: digits.drop 1
        digits.take 1 ++ fraction ++ mark ++ Nat.toDigits 10 top.natAbs
      else if 0 ≤ p then digits ++ List.replicate p.toNat '0' ++ ['.', '0']
      else if 0 ≤ top then digits.take (top.toNat + 1) ++ ['.'] ++ digits.drop (top.toNat + 1)
      else ['0', '.'] ++ List.replicate (top.natAbs - 1) '0' ++ digits

end LspClient.Binary64
