import LspClient.Decimal.Natural

/-! Which texts are numerals, and that printed naturals are. -/
namespace LspClient.Decimal

inductive Numeral (n : Nat) : List Char → Prop where
  | plain {digits} (some : digits ≠ []) (all : ∀ c ∈ digits, c.isDigit = true)
      (value : ofDigits digits = n) (small : n < Nat.pow 2 64) : Numeral n digits
  | signed {digits} (some : digits ≠ []) (all : ∀ c ∈ digits, c.isDigit = true)
      (value : ofDigits digits = n) (small : n < Nat.pow 2 64) : Numeral n ('+' :: digits)

theorem nat64Numeral {cs : List Char} {n : Nat} : nat64? cs = some n ↔ Numeral n cs := by
  constructor
  · intro read
    unfold nat64? at read
    simp only [Option.ite_none_right_eq_some, List.all_eq_true, Option.some.injEq] at read
    obtain ⟨⟨some, all, small⟩, value⟩ := read
    revert some all small value
    split <;> intro value some all small
    · exact .signed some all value (value ▸ small)
    · exact .plain some all value (value ▸ small)
  · intro numeral
    unfold nat64?
    simp only [Option.ite_none_right_eq_some, List.all_eq_true, Option.some.injEq]
    cases numeral with
    | signed some all value small => exact ⟨⟨some, all, value ▸ small⟩, value⟩
    | plain some all value small =>
      split
      · rename_i rest
        have sign := all '+' List.mem_cons_self
        cases sign
      · exact ⟨⟨some, all, value ▸ small⟩, value⟩

theorem ofDigitsPrinted (n : Nat) : ofDigits (Nat.toDigits 10 n) = n := by
  have value : Nat.ofDigitChars 10 (Nat.toDigits 10 n) 0 = n := Nat.ofDigitChars_ten_toDigits
  rw [Nat.ofDigitChars_eq_foldl] at value
  simpa only [ofDigits, Nat.mul_comm] using value

theorem printedInjective {n k : Nat} (same : toString n = toString k) : n = k := by
  have digits : Nat.toDigits 10 n = Nat.toDigits 10 k := String.ofList_injective same
  rw [← ofDigitsPrinted n, digits, ofDigitsPrinted]

theorem digitPrinted {n : Nat} {c : Char} (member : c ∈ Nat.toDigits 10 n) : c.isDigit = true :=
  Nat.isDigit_of_mem_toDigits (by decide) (by decide) member

theorem numeralPrinted {n : Nat} (small : n < Nat.pow 2 64) : Numeral n (Nat.toDigits 10 n) :=
  .plain Nat.toDigits_ne_nil (fun _ => digitPrinted) (ofDigitsPrinted n) small

end LspClient.Decimal
