/-! Decimal numerals of naturals that fit 64 bits. A plus sign may stand before the digits. -/
namespace LspClient.Decimal

def ofDigits (digits : List Char) : Nat :=
  digits.foldl (fun n c => n * 10 + (c.toNat - '0'.toNat)) 0

def nat64? (cs : List Char) : Option Nat :=
  let digits := match cs with
    | '+' :: rest => rest
    | _ => cs
  if digits ≠ [] ∧ digits.all Char.isDigit ∧ ofDigits digits < Nat.pow 2 64 then some (ofDigits digits)
  else none

end LspClient.Decimal
